import Mathlib.Data.Finset.Card
import Mathlib.Data.List.Dedup
import Mathlib.Data.Set.Function
import PageBuilder.Dom.IndexedNames

/-!
# How names are numbered

A table of names grows by the names that it meets: in the end it holds those that it began with and
those that it met, each once (`NameTable.mem_names_after`, `NameTable.size_eq_of_mem_iff`).

Names with an index are the same thing kept twice, in an array and in a map that goes the other way.
The two stay in step with a table through any names that are met (`IndexedNames.Mirrors.after`), so
as long as the numbers do not run out, names and numbers determine each other
(`IndexedNames.numbers_of_few`). Nothing is ever renumbered (`IndexedNames.extends_after`).
-/

namespace PageBuilder.Dom

/-! ## Meeting names -/

namespace NameTable

/-- The names of a new tree. -/
def vocabulary : List String := "" :: pageTags ++ pageAttributes

/-- The table after some more names were met, one after another. -/
def after (t : NameTable) (names : List String) : NameTable :=
  names.foldl (fun t name => (t.intern name).2) t

variable {t : NameTable} {name other : String} {n : NameId}

theorem initial_eq : initial = empty.after vocabulary := rfl

theorem after_append (t : NameTable) (names more : List String) :
    t.after (names ++ more) = (t.after names).after more :=
  List.foldl_append

theorem names_intern_of_new (h : t.find? name = none) :
    (t.intern name).2.names = t.names.push name := by
  rw [intern_of_find?_eq_none h]
  rfl

theorem mem_names_intern : other ∈ (t.intern name).2.names ↔ other ∈ t.names ∨ other = name := by
  cases h : t.find? name with
  | some n =>
    have hmem : name ∈ t.names := Array.mem_of_getElem? (find?_eq_some_iff.1 h)
    rw [intern_of_find?_eq_some h]
    exact ⟨.inl, fun hor => hor.elim id fun heq => heq ▸ hmem⟩
  | none => rw [names_intern_of_new h, Array.mem_push]

/-- A table holds the names that it began with and those that it met. -/
theorem mem_names_after {names : List String} :
    name ∈ (t.after names).names ↔ name ∈ t.names ∨ name ∈ names := by
  induction names generalizing t with
  | nil => simp [after]
  | cons first rest ih =>
    show name ∈ ((t.intern first).2.after rest).names ↔ _
    rw [ih, mem_names_intern, List.mem_cons, or_assoc]

theorem mem_names_initial : name ∈ initial.names ↔ name ∈ vocabulary := by
  rw [initial_eq, mem_names_after]
  exact ⟨fun h => h.resolve_left (Array.not_mem_empty name), .inr⟩

/-- A table holds each of its names once. -/
theorem size_eq_of_mem_iff {names : List String} (h : ∀ name, name ∈ t.names ↔ name ∈ names) :
    t.size = names.dedup.length := by
  have hperm : t.names.toList.Perm names.dedup :=
    (List.perm_ext_iff_of_nodup t.nodup names.nodup_dedup).2 fun name => by
      rw [List.mem_dedup, ← h, Array.mem_def]
  exact hperm.length_eq

/-- A table that holds some more names than another is larger by their number. -/
theorem size_eq_add_card {t t' : NameTable} {fresh : Finset String}
    (h : ∀ name, name ∈ t'.names ↔ name ∈ t.names ∨ name ∈ fresh)
    (hfresh : ∀ name ∈ fresh, name ∉ t.names) : t'.size = t.size + fresh.card := by
  have hnodup : (t.names.toList ++ fresh.toList).Nodup := by
    refine List.nodup_append.2 ⟨t.nodup, fresh.nodup_toList, ?_⟩
    rintro name hname _ hmem rfl
    exact hfresh name (Finset.mem_toList.1 hmem) (Array.mem_def.2 hname)
  have hsize : t'.size = (t.names.toList ++ fresh.toList).dedup.length :=
    size_eq_of_mem_iff fun name => by
      rw [h, List.mem_append, Finset.mem_toList, Array.mem_def]
  rw [hsize, hnodup.dedup, List.length_append, Finset.length_toList, Array.length_toList, size]

theorem index_lt_of_name? (h : t.name? n = some name) : n.index < t.size :=
  (Array.getElem?_eq_some_iff.1 h).1

theorem size_intern_le (t : NameTable) (name : String) :
    (t.intern name).2.size ≤ t.size + 1 := by
  cases h : t.find? name with
  | some n =>
    rw [intern_of_find?_eq_some h]
    exact Nat.le_succ _
  | none => rw [size, names_intern_of_new h, Array.size_push, size]

/-- A new name gets the next number, and the others keep theirs. -/
theorem find?_intern_of_new (h : t.find? name = none) (other : String) :
    (t.intern name).2.find? other = if other = name then some ⟨t.size⟩ else t.find? other := by
  split
  · rename_i hother
    have hself := find?_eq_some_iff.2 (name?_intern_self t name)
    rw [hother, hself, intern_of_find?_eq_none h]
  · rename_i hother
    cases hfind : t.find? other with
    | some n => exact find?_eq_some_iff.2 (name?_intern_of_eq_some (find?_eq_some_iff.1 hfind) name)
    | none =>
      rw [find?_eq_none_iff, mem_names_intern]
      exact fun hmem => hmem.elim (find?_eq_none_iff.1 hfind) hother

end NameTable

namespace IndexedNames

variable {s s' s'' : IndexedNames} {t : NameTable} {name : String} {n : UInt32}

theorem intern_of_known (h : s.find? name = some n) : s.intern name = (n, s) := by
  rw [intern, h]

theorem intern_of_new (h : s.find? name = none) :
    s.intern name =
      (s.size.toUInt32, ⟨s.names.push name, s.numbers.insert name s.size.toUInt32⟩) := by
  rw [intern, h]

/-! ## Nothing is renumbered -/

/-- Names to which others may have come in: what is known stays known under the same number. -/
structure Extends (s s' : IndexedNames) : Prop where
  size_le : s.size ≤ s'.size
  find?_eq : ∀ {name n}, s.find? name = some n → s'.find? name = some n
  name_eq : ∀ {n}, n.toNat < s.size → s'.name n = s.name n

theorem Extends.refl (s : IndexedNames) : s.Extends s := ⟨Nat.le_refl _, id, fun _ => rfl⟩

theorem Extends.trans (h : s.Extends s') (h' : s'.Extends s'') : s.Extends s'' where
  size_le := h.size_le.trans h'.size_le
  find?_eq := fun hn => h'.find?_eq (h.find?_eq hn)
  name_eq := fun hn => (h'.name_eq (Nat.lt_of_lt_of_le hn h.size_le)).trans (h.name_eq hn)

theorem extends_intern (s : IndexedNames) (name : String) : s.Extends (s.intern name).2 := by
  cases h : s.find? name with
  | some n =>
    rw [intern_of_known h]
    exact .refl s
  | none =>
    rw [intern_of_new h]
    refine ⟨?_, fun {other n} hn => ?_, fun {n} hn => ?_⟩
    · rw [size, size, Array.size_push]
      exact Nat.le_succ _
    · have hne : name ≠ other := by
        rintro rfl
        rw [h] at hn
        cases hn
      rw [find?, Std.HashMap.getElem?_insert, if_neg (by simpa using hne)]
      exact hn
    · rw [IndexedNames.name, Array.getElem?_push_lt hn, IndexedNames.name,
        Array.getElem?_eq_getElem hn]

/-- **A name keeps its number and a number its name**, whatever names are met. -/
theorem extends_after (s : IndexedNames) (names : List String) : s.Extends (s.after names) := by
  induction names generalizing s with
  | nil => exact .refl s
  | cons name names ih => exact (s.extends_intern name).trans (ih _)

theorem find?_intern_self (s : IndexedNames) (name : String) :
    (s.intern name).2.find? name = some (s.intern name).1 := by
  cases h : s.find? name with
  | some n => rw [intern_of_known h, h]
  | none =>
    rw [intern_of_new h]
    exact Std.HashMap.getElem?_insert_self

/-- Each number that is given out is the one that the name has in the end. -/
theorem map_numbersOf (s : IndexedNames) (names : List String) :
    (s.numbersOf names).map some = names.map (s.after names).find? := by
  induction names generalizing s with
  | nil => rfl
  | cons name names ih =>
    have hfirst := ((s.intern name).2.extends_after names).find?_eq (s.find?_intern_self name)
    rw [numbersOf, List.map_cons, List.map_cons, ih, ← hfirst]
    rfl

/-! ## In step with a table -/

/-- Names that are those of a table, and an index with the numbers that they have there, as far as
these fit. -/
structure Mirrors (s : IndexedNames) (t : NameTable) : Prop where
  names_eq : s.names = t.names
  find?_eq : ∀ name, s.find? name = (t.find? name).map fun n => n.index.toUInt32

namespace Mirrors

theorem empty : Mirrors {} NameTable.empty := by
  refine ⟨rfl, fun name => ?_⟩
  rw [NameTable.find?_eq_none_iff.2 (Array.not_mem_empty name)]
  exact Std.HashMap.getElem?_empty

theorem size_eq (h : s.Mirrors t) : s.size = t.size := congrArg Array.size h.names_eq

/-- A name that is met comes into names and index as it does into the table. -/
theorem intern (h : s.Mirrors t) (name : String) :
    (s.intern name).1 = (t.intern name).1.index.toUInt32 ∧
      (s.intern name).2.Mirrors (t.intern name).2 := by
  have hfind := h.find?_eq name
  cases ht : t.find? name with
  | some n =>
    rw [ht, Option.map_some] at hfind
    rw [intern_of_known hfind, NameTable.intern_of_find?_eq_some ht]
    exact ⟨rfl, h⟩
  | none =>
    rw [ht, Option.map_none] at hfind
    refine ⟨?_, ?_, fun other => ?_⟩
    · rw [intern_of_new hfind, NameTable.intern_of_find?_eq_none ht, h.size_eq]
    · rw [intern_of_new hfind, NameTable.names_intern_of_new ht, h.names_eq]
    · rw [NameTable.find?_intern_of_new ht, intern_of_new hfind, find?, Std.HashMap.getElem?_insert]
      by_cases hother : other = name
      · simp [hother, h.size_eq]
      · rw [if_neg hother, if_neg (by simpa using Ne.symm hother), ← h.find?_eq]
        rfl

theorem after (h : s.Mirrors t) (names : List String) :
    (s.after names).Mirrors (t.after names) := by
  induction names generalizing s t with
  | nil => exact h
  | cons name names ih => exact ih (h.intern name).2

theorem initial : Mirrors IndexedNames.initial NameTable.initial := empty.after _

/-- A number of 32 bits is that of the table if the table is not too large for it. -/
theorem find?_eq_some_iff (h : s.Mirrors t) (hfew : t.size ≤ UInt32.size) :
    s.find? name = some n ↔ t.name? ⟨n.toNat⟩ = some name := by
  rw [h.find?_eq, Option.map_eq_some_iff, ← NameTable.find?_eq_some_iff]
  constructor
  · rintro ⟨m, hm, rfl⟩
    have hlt := NameTable.index_lt_of_name? (NameTable.find?_eq_some_iff.1 hm)
    rw [hm, UInt32.toNat_ofNat_of_lt' (Nat.lt_of_lt_of_le hlt hfew)]
  · intro hn
    exact ⟨_, hn, UInt32.ofNat_toNat⟩

theorem map_toNat_find? (h : s.Mirrors t) (hfew : t.size ≤ UInt32.size) (name : String) :
    (s.find? name).map UInt32.toNat = (t.find? name).map NameId.index := by
  rw [h.find?_eq, Option.map_map]
  cases hm : t.find? name with
  | none => rfl
  | some m =>
    have hlt := NameTable.index_lt_of_name? (NameTable.find?_eq_some_iff.1 hm)
    exact congrArg some (UInt32.toNat_ofNat_of_lt' (Nat.lt_of_lt_of_le hlt hfew))

theorem toNat_intern (h : s.Mirrors t) (hfew : t.size < UInt32.size) (name : String) :
    (s.intern name).1.toNat = (t.intern name).1.index := by
  have hlt := NameTable.index_lt_of_name? (t.name?_intern_self name)
  have hsize := (t.size_intern_le name).trans (Nat.succ_le_of_lt hfew)
  rw [(h.intern name).1]
  exact UInt32.toNat_ofNat_of_lt' (Nat.lt_of_lt_of_le hlt hsize)

theorem name?_eq_some_iff (h : s.Mirrors t) :
    t.name? ⟨n.toNat⟩ = some name ↔ n.toNat < s.size ∧ s.name n = name := by
  rw [NameTable.name?, ← h.names_eq, Array.getElem?_eq_some_iff, IndexedNames.name]
  constructor
  · rintro ⟨hlt, hname⟩
    rw [Array.getElem?_eq_getElem hlt]
    exact ⟨hlt, hname⟩
  · rintro ⟨hlt, hname⟩
    rw [Array.getElem?_eq_getElem hlt] at hname
    exact ⟨hlt, hname⟩

end Mirrors

/-! ## Names and numbers -/

/-- Names that are numbered one to one, and go on being so with the next name that is met. -/
structure Numbers (s : IndexedNames) (known : List String) : Prop where
  /-- Numbers below the count and known names correspond to each other. -/
  bijOn : Set.BijOn s.name {n | n.toNat < s.size} {name | name ∈ known}
  find?_eq_some_iff : ∀ {name n}, s.find? name = some n ↔ n.toNat < s.size ∧ s.name n = name
  /-- A known name keeps its number, and nothing comes in. -/
  intern_known : ∀ {name n}, s.find? name = some n → s.intern name = (n, s)
  /-- A new name gets the next number. -/
  intern_new : ∀ {name}, s.find? name = none →
    (s.intern name).1.toNat = s.size ∧ (s.intern name).2.size = s.size + 1
  name_intern : ∀ name, (s.intern name).2.name (s.intern name).1 = name

theorem Mirrors.numbers (h : s.Mirrors t) (hfew : t.size < UInt32.size) {known : List String}
    (hknown : ∀ name, name ∈ t.names ↔ name ∈ known) : s.Numbers known where
  bijOn := by
    refine ⟨fun n hn => ?_, fun n hn m hm heq => ?_, fun name hname => ?_⟩
    · exact (hknown _).1 (Array.mem_of_getElem? (h.name?_eq_some_iff.2 ⟨hn, rfl⟩))
    · have hsame := NameTable.eq_of_name?_eq (h.name?_eq_some_iff.2 ⟨hn, heq⟩)
        (h.name?_eq_some_iff.2 ⟨hm, rfl⟩)
      exact UInt32.toNat_inj.1 (congrArg NameId.index hsame)
    · cases hfind : t.find? name with
      | none => exact absurd ((hknown name).2 hname) (NameTable.find?_eq_none_iff.1 hfind)
      | some m =>
        have hnumber : s.find? name = some m.index.toUInt32 := by rw [h.find?_eq, hfind]; rfl
        exact ⟨_, h.name?_eq_some_iff.1 ((h.find?_eq_some_iff hfew.le).1 hnumber)⟩
  find?_eq_some_iff := (h.find?_eq_some_iff hfew.le).trans h.name?_eq_some_iff
  intern_known := intern_of_known
  intern_new := fun hnew => by
    rw [intern_of_new hnew]
    refine ⟨?_, Array.size_push ..⟩
    rw [h.size_eq]
    exact UInt32.toNat_ofNat_of_lt' hfew
  name_intern := fun name => by
    have hmirrors := (h.intern name).2
    have hsize := (t.size_intern_le name).trans (Nat.succ_le_of_lt hfew)
    have hself := (hmirrors.find?_eq_some_iff hsize).1 (s.find?_intern_self name)
    exact (hmirrors.name?_eq_some_iff.1 hself).2

/-- Two numbers that are given out are the same exactly if the names are. -/
theorem Numbers.numbersOf_eq_iff {known names : List String} (h : (s.after names).Numbers known)
    {i j : ℕ} (hi : i < names.length) (hj : j < names.length) :
    (s.numbersOf names)[i]? = (s.numbersOf names)[j]? ↔ names[i]? = names[j]? := by
  have hnumber : ∀ {k : ℕ}, k < names.length → ∃ name n, names[k]? = some name ∧
      (s.numbersOf names)[k]? = some n ∧ (s.after names).find? name = some n := by
    intro k hk
    have hk' := congrArg (·[k]?) (s.map_numbersOf names)
    simp only [List.getElem?_map, List.getElem?_eq_getElem hk, Option.map_some] at hk'
    obtain ⟨n, hn, hfind⟩ := Option.map_eq_some_iff.1 hk'
    exact ⟨_, n, List.getElem?_eq_getElem hk, hn, hfind.symm⟩
  obtain ⟨name, n, hname, hn, hfind⟩ := hnumber hi
  obtain ⟨name', n', hname', hn', hfind'⟩ := hnumber hj
  rw [hname, hname', hn, hn', Option.some.injEq, Option.some.injEq]
  constructor
  · rintro rfl
    rw [← (h.find?_eq_some_iff.1 hfind).2, (h.find?_eq_some_iff.1 hfind').2]
  · rintro rfl
    exact Option.some.inj (hfind.symm.trans hfind')

/-! ## From the start -/

theorem mem_names_initial_after {names : List String} {name : String} :
    name ∈ (NameTable.initial.after names).names ↔ name ∈ NameTable.vocabulary ++ names := by
  rw [NameTable.mem_names_after, NameTable.mem_names_initial, List.mem_append]

theorem numbers_initial_after {names : List String}
    (hfew : (NameTable.initial.after names).size < UInt32.size) :
    (initial.after names).Numbers (NameTable.vocabulary ++ names) :=
  (Mirrors.initial.after names).numbers hfew fun _ => mem_names_initial_after

/-- **Names and numbers determine each other**, through any names that are met from the start, if
there are not more of them than 32 bits can number. What is known then are the names of a new tree
and those that were met. Names that are met later change no number, and two numbers that are given
out are the same exactly if the names are. All numbers are those that a `NameTable` gives out. -/
theorem numbers_of_few (earlier later : List String)
    (hfew : (NameTable.vocabulary ++ earlier ++ later).dedup.length < UInt32.size) :
    let s := initial.after earlier
    let t := NameTable.initial.after earlier
    s.Numbers (NameTable.vocabulary ++ earlier) ∧ s.Extends (s.after later) ∧
      (∀ i j, i < (earlier ++ later).length → j < (earlier ++ later).length →
        ((initial.numbersOf (earlier ++ later))[i]? = (initial.numbersOf (earlier ++ later))[j]? ↔
          (earlier ++ later)[i]? = (earlier ++ later)[j]?)) ∧
      s.names = t.names ∧
      (∀ name, (s.find? name).map UInt32.toNat = (t.find? name).map NameId.index) ∧
      ∀ name, (s.intern name).1.toNat = (t.intern name).1.index := by
  intro s t
  have hmirrors : s.Mirrors t := Mirrors.initial.after earlier
  have hextends := s.extends_after later
  have hall : (NameTable.initial.after (earlier ++ later)).size < UInt32.size := by
    rw [List.append_assoc] at hfew
    rwa [NameTable.size_eq_of_mem_iff fun _ => mem_names_initial_after]
  have hsize : t.size < UInt32.size := by
    have hle := hextends.size_le
    rw [hmirrors.size_eq, (hmirrors.after later).size_eq, ← NameTable.after_append] at hle
    exact Nat.lt_of_le_of_lt hle hall
  exact ⟨numbers_initial_after hsize, hextends,
    fun _ _ hi hj => (numbers_initial_after hall).numbersOf_eq_iff hi hj, hmirrors.names_eq,
    hmirrors.map_toNat_find? hsize.le, hmirrors.toNat_intern hsize⟩

/-- Two attributes that pages have no use for by themselves get the numbers after the names of a new
tree, and keep them when they are met again. -/
theorem numbers_of_few_data :
    (NameTable.vocabulary ++ ["data-x", "p"] ++ ["data-y", "data-x"]).dedup.length < UInt32.size ∧
      ((initial.after ["data-x", "p"]).find? "data-x").map UInt32.toNat = some 27 ∧
      ((initial.after ["data-x", "p"]).intern "data-y").1.toNat = 28 ∧
      ((initial.after ["data-x", "p"]).after ["data-y", "data-x"]).find? "data-x" =
        (initial.after ["data-x", "p"]).find? "data-x" ∧
      (initial.numbersOf ["data-x", "p", "data-y", "data-x"])[0]? =
        (initial.numbersOf ["data-x", "p", "data-y", "data-x"])[3]? ∧
      (initial.numbersOf ["data-x", "p", "data-y", "data-x"])[0]? ≠
        (initial.numbersOf ["data-x", "p", "data-y", "data-x"])[2]? := by
  have hfew : (NameTable.vocabulary ++ ["data-x", "p"] ++ ["data-y", "data-x"]).dedup.length <
      UInt32.size := by decide +kernel
  obtain ⟨-, hextends, hsame, -, hfind, hintern⟩ :=
    numbers_of_few ["data-x", "p"] ["data-y", "data-x"] hfew
  have hnumber : ((initial.after ["data-x", "p"]).find? "data-x").map UInt32.toNat = some 27 := by
    rw [hfind]
    decide +kernel
  refine ⟨hfew, hnumber, ?_, ?_, ?_, ?_⟩
  · rw [hintern]
    decide +kernel
  · obtain ⟨n, hn, -⟩ := Option.map_eq_some_iff.1 hnumber
    rw [hextends.find?_eq hn, hn]
  · exact (hsame 0 3 (by decide) (by decide)).2 rfl
  · exact mt (hsame 0 2 (by decide) (by decide)).1 (by decide)

end IndexedNames

end PageBuilder.Dom
