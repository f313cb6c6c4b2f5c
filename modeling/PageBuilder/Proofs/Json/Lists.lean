import Mathlib.Data.Nat.Init
import PageBuilder.Json.Read

/-!
# Lists as a whole and item by item

`Json.read` reads a text to its end and gives the list that it holds; `Json.readList` makes
something of every item as soon as it is read, and so it has one level of nesting less left for the
items. Where a text begins with an opening bracket, both come to the same (`read_eq_map_readList`):
a function that is applied to the items can be applied to the list instead (`Reader.items_map`), and
what remains is one reading of the same characters.

Any other text holds no list, so one of them fails and the other reads something else
(`readList_ne_ok`, `kind_ne_array_of_read`).
-/

namespace PageBuilder.Json

variable {α β : Type} {cs rest : List Char} {text : String}

/-! ## Functions of items -/

namespace Reader

variable (f : α → β) (item : Reader α) (b : Brackets)

theorem read_map (cs : List Char) :
    (item.map f).read cs = (item.read cs).map fun x => (f x.1, x.2) := by
  dsimp only [map]
  cases item.read cs <;> rfl

/-- The items that follow an item: none, or one more and those that follow it. -/
theorem tail_eq (cs : List Char) :
    item.tail b cs = (b.next cs).bind fun (more, start) =>
      if more then (item.read start).bind fun (v, after) =>
        (item.tail b after).map fun x => (v :: x.1, x.2)
      else .ok ([], start) := by
  rw [tail]
  split
  · next f hnext => simp only [hnext, Except.bind]
  · next rest hnext => simp only [hnext, Except.bind, Bool.false_eq_true, if_false]
  · next start hnext =>
    simp only [hnext, Except.bind, if_true]
    split
    · next f hread => simp only [hread]
    · next v after hread =>
      simp only [hread]
      cases item.tail b after <;> rfl

/-- The items after an opening bracket: none, or one and those that follow it. -/
theorem items_eq (cs : List Char) :
    item.items b cs = (b.first cs).bind fun (more, start) =>
      if more then (item.read start).bind fun (v, after) =>
        (item.tail b after).map fun x => (v :: x.1, x.2)
      else .ok ([], start) := by
  rw [items]
  cases b.first cs with
  | error e => rfl
  | ok first =>
    obtain ⟨more, start⟩ := first
    cases more with
    | false => rfl
    | true =>
      simp only [Except.bind, if_true]
      cases item.read start with
      | error e => rfl
      | ok first =>
        dsimp only
        cases item.tail b first.2 <;> rfl

theorem tail_map (cs : List Char) :
    (item.map f).tail b cs = (item.tail b cs).map fun x => (x.1.map f, x.2) := by
  induction hlength : cs.length using Nat.strong_induction_on generalizing cs with
  | _ k ih =>
    rw [tail_eq, tail_eq]
    cases hnext : b.next cs with
    | error e => rfl
    | ok next =>
      obtain ⟨more, start⟩ := next
      cases more with
      | false => rfl
      | true =>
        show ((item.map f).read start).bind _ = ((item.read start).bind _).map _
        rw [read_map]
        cases hread : item.read start with
        | error e => rfl
        | ok first =>
          -- what follows the item is shorter than what the item was read from
          have hshorter := Nat.lt_of_lt_of_le (item.shorter hread) (b.leaves_next cs hnext)
          show ((item.map f).tail b first.2).map _ = ((item.tail b first.2).map _).map _
          rw [ih _ (hlength ▸ hshorter) first.2 rfl]
          cases item.tail b first.2 <;> rfl

theorem items_map (cs : List Char) :
    (item.map f).items b cs = (item.items b cs).map fun x => (x.1.map f, x.2) := by
  rw [items_eq, items_eq]
  cases b.first cs with
  | error e => rfl
  | ok first =>
    obtain ⟨more, start⟩ := first
    cases more with
    | false => rfl
    | true =>
      show ((item.map f).read start).bind _ = ((item.read start).bind _).map _
      rw [read_map]
      cases item.read start with
      | error e => rfl
      | ok first =>
        show ((item.map f).tail b first.2).map _ = ((item.tail b first.2).map _).map _
        rw [tail_map]
        cases item.tail b first.2 <;> rfl

/-- A list of which something is made item by item is a list of which it is made afterwards, and is
refused for the same reasons. -/
theorem list_map (cs : List Char) :
    (item.map f).list cs = (item.list cs).map fun x => (x.1.map f, x.2) := by
  rw [list, list]
  split
  · rfl
  · exact items_map f item listBrackets _
  · rfl
  · cases simpleValue _ <;> rfl

end Reader

/-! ## Texts -/

/-- What is made of a value can be made once the text was read to its end. -/
theorem complete_map (f : α → β) (text : List Char) (x : Reading α) :
    complete text (x.map fun y => (f y.1, y.2)) = (complete text x).map f := by
  cases x with
  | error e => rfl
  | ok y =>
    show complete text (.ok (f y.1, y.2)) = (complete text (.ok y)).map f
    rw [complete, complete]
    cases skipSpace y.2 <;> rfl

theorem readList_eq (f : Json → α) (text : String) :
    readList f text = (complete text.toList ((Reader.value (depthLimit - 1)).list text.toList)).map
      (List.map f) := by
  rw [readList, Reader.list_map, complete_map]

/-- A list in brackets is read as a whole as it is read item by item. -/
theorem read_eq_map_readList (h : skipSpace text.toList = '[' :: rest) :
    read text = (readList id text).map array := by
  have hvalue : (Reader.value depthLimit).read text.toList =
      ((Reader.value (depthLimit - 1)).list text.toList).map fun x => (array x.1, x.2) := by
    rw [Reader.list, h]
    show (Reader.valueOver (some (Reader.value (depthLimit - 1)))).read text.toList = _
    simp only [Reader.valueOver, h]
  rw [readList_eq, read, hvalue, complete_map, List.map_id_fun]
  cases complete text.toList _ <;> rfl

/-! ## Texts without a list -/

theorem kind_ne_array_of_map {x : Reading α} {f : α → Json} {v : Json}
    (hkind : ∀ a, (f a).kind ≠ .array) (h : x.map (fun r => (f r.1, r.2)) = .ok (v, rest)) :
    v.kind ≠ .array := by
  cases x with
  | error e => cases h
  | ok r =>
    cases h
    exact hkind r.1

/-- No value without parts is a list. -/
theorem kind_ne_array_of_simpleValue {v : Json} :
    simpleValue cs = .ok (v, rest) → v.kind ≠ .array := by
  fun_cases simpleValue cs with
  | case1 => exact kind_ne_array_of_map (f := fun _ => null) fun _ => Kind.noConfusion
  | case2 => exact kind_ne_array_of_map (f := fun _ => bool true) fun _ => Kind.noConfusion
  | case3 => exact kind_ne_array_of_map (f := fun _ => bool false) fun _ => Kind.noConfusion
  | case4 | case6 => exact kind_ne_array_of_map (f := number) fun _ => Kind.noConfusion
  | case5 => exact kind_ne_array_of_map (f := string) fun _ => Kind.noConfusion
  | case7 =>
    intro h
    cases h

theorem exists_of_complete_eq_ok {text : List Char} {x : Reading α} {v : α}
    (h : complete text x = .ok v) : ∃ rest, x = .ok (v, rest) := by
  cases x with
  | error e => cases h
  | ok y =>
    rw [complete] at h
    split at h
    · cases h
      exact ⟨y.2, rfl⟩
    · cases h

/-- A text that does not begin with an opening bracket holds no list. -/
theorem kind_ne_array_of_read {v : Json} (h : (skipSpace text.toList).head? ≠ some '[')
    (hread : read text = .ok v) : v.kind ≠ .array := by
  obtain ⟨rest, hvalue⟩ := exists_of_complete_eq_ok hread
  replace hvalue :
      (Reader.valueOver (some (Reader.value (depthLimit - 1)))).read text.toList = .ok (v, rest) :=
    hvalue
  rw [Reader.valueOver] at hvalue
  dsimp only at hvalue
  split at hvalue
  · cases hvalue
  · next inside hskip => exact absurd (congrArg List.head? hskip) h
  · next inside hskip =>
    exact kind_ne_array_of_map (f := fun entries => object (fieldsOfList entries))
      (fun _ => Kind.noConfusion) hvalue
  · exact kind_ne_array_of_simpleValue hvalue

/-- A text that does not begin with an opening bracket is not read as a list. -/
theorem readList_ne_ok (h : (skipSpace text.toList).head? ≠ some '[') (f : Json → α)
    (items : List α) : readList f text ≠ .ok items := by
  intro hread
  obtain ⟨rest, hlist⟩ := exists_of_complete_eq_ok hread
  rw [Reader.list] at hlist
  split at hlist
  · cases hlist
  · next inside hskip => exact absurd (congrArg List.head? hskip) h
  · cases hlist
  · split at hlist <;> cases hlist

end PageBuilder.Json
