import PageBuilder.Json.Numeral
import PageBuilder.Json.Strings

/-!
# Reading JSON

`Json.read` reads a text that holds one value. `Json.readList` reads a text that holds one list and
makes something of every item as soon as it is read. Both take the same readers, so they differ only
where the text holds no list: `readList` then says what it found instead, without reading on.

Lists and objects may be nested in each other up to `depthLimit`.
-/

namespace PageBuilder.Json

/-- How deep lists and objects may be nested. -/
def depthLimit : Nat := 127

/-! ## Words -/

/-- Reads the given characters. -/
def word (expected : List Char) (cs : List Char) : Reading Unit :=
  match expected, cs with
  | [], cs => .ok ((), cs)
  | _ :: _, [] => .error (.here .endInValue [])
  | e :: es, c :: rest => if c = e then word es rest else .error (.next .expectedWord (c :: rest))

theorem leaves_word (expected cs : List Char) : (word expected cs).Leaves cs.length := by
  fun_induction word expected cs with
  | case1 cs => exact .ok () (Nat.le_refl _)
  | case2 | case4 => exact .error _ _
  | case3 c expected rest ih => exact ih.mono (Nat.le_succ _)

/-! ## Values without parts -/

/-- The value that a character begins, unless that character is an opening bracket. -/
def simpleValue (cs : List Char) : Reading Json :=
  match cs with
  | 'n' :: rest => (word "ull".toList rest).map fun r => (null, r.2)
  | 't' :: rest => (word "rue".toList rest).map fun r => (bool true, r.2)
  | 'f' :: rest => (word "alse".toList rest).map fun r => (bool false, r.2)
  | '-' :: rest => (numeral true rest).map fun r => (number r.1, r.2)
  | '"' :: rest => (stringRest [] rest).map fun r => (string r.1, r.2)
  | cs =>
    if startsWithDigit cs then (numeral false cs).map fun r => (number r.1, r.2)
    else .error (.next .expectedValue cs)

theorem length_lt_of_map {α β : Type} {x : Reading α} {f : α × List Char → β} {n : Nat} {v rest}
    (hx : ∀ a r, x = .ok (a, r) → r.length < n)
    (h : x.map (fun r => (f r, r.2)) = .ok (v, rest)) : rest.length < n := by
  cases x with
  | error => cases h
  | ok r =>
    cases h
    exact hx r.1 r.2 rfl

theorem length_simpleValue_lt {cs v rest} :
    simpleValue cs = .ok (v, rest) → rest.length < cs.length := by
  fun_cases simpleValue cs with
  | case1 letters | case2 letters | case3 letters =>
    exact length_lt_of_map fun _ _ hread => Nat.lt_succ_of_le (leaves_word _ letters hread)
  | case4 digits =>
    exact length_lt_of_map fun _ _ hread => Nat.lt_succ_of_lt (length_numeral_lt hread)
  | case5 chars =>
    exact length_lt_of_map fun _ _ hread => Nat.lt_succ_of_le (leaves_stringRest [] chars hread)
  | case6 => exact length_lt_of_map fun _ _ hread => length_numeral_lt hread
  | case7 => exact nofun

/-! ## Values -/

/-- The colon between a key and its value. -/
def colon (cs : List Char) : Reading Unit :=
  match skipSpace cs with
  | [] => .error (.next .endInObject [])
  | ':' :: rest => .ok ((), rest)
  | start => .error (.next .expectedColon start)

theorem leaves_colon (cs : List Char) : (colon cs).Leaves cs.length := by
  fun_cases colon cs with
  | case1 | case3 => exact .error _ _
  | case2 rest hskip => exact .ok () (Nat.le_of_lt (lt_of_skipSpace_eq_cons hskip))

namespace Reader

/-- A key, a colon and a value; the key's opening quote comes first. -/
def entry (value : Reader Json) : Reader (String × Json) where
  read cs :=
    match stringRest [] (cs.drop 1) with
    | .error f => .error f
    | .ok (key, rest) =>
      match colon rest with
      | .error f => .error f
      | .ok (_, rest) =>
        match value.read rest with
        | .error f => .error f
        | .ok (v, rest) => .ok ((key, v), rest)
  shorter {cs v rest} h := by
    split at h
    · cases h
    · next key afterKey hkey =>
      split at h
      · cases h
      · next u afterColon hcolon =>
        split at h
        · cases h
        · next w afterValue hvalue =>
          cases h
          calc rest.length
              < afterColon.length := value.shorter hvalue
            _ ≤ afterKey.length := leaves_colon afterKey hcolon
            _ ≤ (cs.drop 1).length := leaves_stringRest [] _ hkey
            _ ≤ cs.length := by
              rw [List.length_drop]
              exact Nat.sub_le _ 1

/-- A value whose lists and objects hold what `nested` reads; without it they are too deep. -/
def valueOver (nested : Option (Reader Json)) : Reader Json where
  read cs :=
    match skipSpace cs with
    | [] => .error (.next .endInValue [])
    | '[' :: rest =>
      match nested with
      | none => .error (.next .tooDeep ('[' :: rest))
      | some r => (r.items listBrackets rest).map fun x => (array x.1, x.2)
    | '{' :: rest =>
      match nested with
      | none => .error (.next .tooDeep ('{' :: rest))
      | some r => (r.entry.items objectBrackets rest).map fun x => (object (fieldsOfList x.1), x.2)
    | start => simpleValue start
  shorter {cs v rest} h := by
    split at h
    · cases h
    · next inside hskip =>
      split at h
      · cases h
      · next r =>
        exact length_lt_of_map (fun _ _ hread => Nat.lt_of_le_of_lt
          (r.leaves_items listBrackets inside hread) (lt_of_skipSpace_eq_cons hskip)) h
    · next inside hskip =>
      split at h
      · cases h
      · next r =>
        exact length_lt_of_map (fun _ _ hread => Nat.lt_of_le_of_lt
          (r.entry.leaves_items objectBrackets inside hread) (lt_of_skipSpace_eq_cons hskip)) h
    · exact Nat.lt_of_lt_of_le (length_simpleValue_lt h) (length_skipSpace_le cs)

/-- A value in which lists and objects are nested at most to a given depth. -/
def value : Nat → Reader Json
  | 0 => valueOver none
  | depth + 1 => valueOver (some (value depth))

/-- A list of what `item` reads. Of any other value no more is read than tells what it is. -/
def list {α : Type} (item : Reader α) (cs : List Char) : Reading (List α) :=
  match skipSpace cs with
  | [] => .error (.next .endInValue [])
  | '[' :: rest => item.items listBrackets rest
  | '{' :: rest => .error (.here (.notAList (object [])) ('{' :: rest))
  | start =>
    match simpleValue start with
    | .error f => .error f
    | .ok (v, rest) => .error (.here (.notAList v) rest)

end Reader

/-! ## Texts -/

/-- What a reading gives if nothing but blanks follows. -/
def complete {α : Type} (text : List Char) (x : Reading α) : Except Error α :=
  match x with
  | .error f => .error (f.locate text)
  | .ok (v, rest) =>
    match skipSpace rest with
    | [] => .ok v
    | more => .error ((Fault.next .trailingCharacters more).locate text)

/-- Reads a text that holds one value. -/
def read (text : String) : Except Error Json :=
  complete text.toList ((Reader.value depthLimit).read text.toList)

/-- Reads a text that holds one list, and makes something of each item. -/
def readList {α : Type} (f : Json → α) (text : String) : Except Error (List α) :=
  complete text.toList (((Reader.value (depthLimit - 1)).map f).list text.toList)

end PageBuilder.Json
