/-!
# Numbered names

A document repeats a handful of tag and attribute names, so each name is stored once and nodes
refer to it by number. A `NameTable` starts with the names every page uses and grows by one with
each new name.

Numbers and names determine each other (`NameTable.find?_eq_some_iff`), and a number that has been
given out keeps its name (`NameTable.name?_intern_of_eq_some`).
-/

namespace PageBuilder.Dom

/-- The number of a name in a `NameTable`. -/
structure NameId where
  index : Nat
deriving DecidableEq, Repr, Inhabited

/-- The number of the empty name in every table. -/
def NameId.empty : NameId := ⟨0⟩

/-- Names in the order in which they were first met; a name's position is its number. -/
structure NameTable where
  names : Array String
  nodup : names.toList.Nodup
deriving DecidableEq

namespace NameTable

/-- The tags that pages are made of. -/
def pageTags : List String :=
  ["html", "head", "body", "style", "div", "p", "a", "button", "select", "option", "img",
    "input", "br", "hr"]

/-- The attributes that pages are made of. -/
def pageAttributes : List String :=
  ["id", "href", "target", "src", "alt", "width", "height", "type", "placeholder", "selected",
    "onclick", "onchange"]

/-- A table without names. -/
def empty : NameTable := ⟨#[], List.nodup_nil⟩

/-- How many names the table holds. -/
def size (t : NameTable) : Nat := t.names.size

/-- Whether the table holds no name at all. -/
def isEmpty (t : NameTable) : Bool := t.names.isEmpty

/-- The name with a given number. -/
def name? (t : NameTable) (n : NameId) : Option String := t.names[n.index]?

/-- The name with a given number; a number not yet given out stands for the empty name. -/
def name (t : NameTable) (n : NameId) : String := (t.name? n).getD ""

/-- The number of a name that the table holds. -/
def find? (t : NameTable) (name : String) : Option NameId :=
  (t.names.findIdx? (· == name)).map NameId.mk

theorem find?_eq_none_iff {t : NameTable} {name : String} :
    t.find? name = none ↔ name ∉ t.names := by
  simp only [find?, Option.map_eq_none_iff, Array.findIdx?_eq_none_iff, beq_eq_false_iff_ne]
  exact ⟨fun h hm => h name hm rfl, fun h x hx hxe => h (hxe ▸ hx)⟩

/-- The table with one more name at its end. -/
def push (t : NameTable) (name : String) (h : name ∉ t.names) : NameTable where
  names := t.names.push name
  nodup := by
    rw [Array.toList_push, List.nodup_append]
    refine ⟨t.nodup, List.nodup_cons.2 ⟨List.not_mem_nil, List.nodup_nil⟩, ?_⟩
    refine fun a ha b hb hab => h ?_
    rw [List.mem_singleton] at hb
    exact Array.mem_def.2 (hb ▸ hab ▸ ha)

/-- The number of a name, which enters the table at its end if it is new. -/
def intern (t : NameTable) (name : String) : NameId × NameTable :=
  match h : t.find? name with
  | some n => (n, t)
  | none => (⟨t.size⟩, t.push name (find?_eq_none_iff.1 h))

/-- The table of a new tree: the empty name, then the names that pages are made of. -/
def initial : NameTable :=
  ("" :: pageTags ++ pageAttributes).foldl (fun t name => (t.intern name).2) empty

/-! ## Numbers and names -/

/-- A name has a number exactly if the number has that name. -/
theorem find?_eq_some_iff {t : NameTable} {name : String} {n : NameId} :
    t.find? name = some n ↔ t.name? n = some name := by
  obtain ⟨i⟩ := n
  simp only [find?, name?, Option.map_eq_some_iff, NameId.mk.injEq, exists_eq_right,
    Array.findIdx?_eq_some_iff_getElem, beq_iff_eq, Array.getElem?_eq_some_iff]
  constructor
  · rintro ⟨hi, hn, -⟩
    exact ⟨hi, hn⟩
  · rintro ⟨hi, hn⟩
    refine ⟨hi, hn, fun j hji hj => ?_⟩
    have hlt : j < t.names.size := Nat.lt_trans hji hi
    have hli : i < t.names.toList.length := hi
    have hlj : j < t.names.toList.length := hlt
    have hsame : t.names.toList[j] = t.names.toList[i] := by
      simp only [Array.getElem_toList]
      exact hj.trans hn.symm
    have := (List.getElem_inj t.nodup).1 hsame
    omega

theorem intern_of_find?_eq_some {t : NameTable} {name : String} {n : NameId}
    (h : t.find? name = some n) : t.intern name = (n, t) := by
  unfold intern
  split
  · rename_i m hm
    rw [h] at hm
    cases hm
    rfl
  · rename_i hn
    rw [h] at hn
    cases hn

theorem intern_of_find?_eq_none {t : NameTable} {name : String} (h : t.find? name = none) :
    t.intern name = (⟨t.size⟩, t.push name (find?_eq_none_iff.1 h)) := by
  unfold intern
  split
  · rename_i m hm
    rw [h] at hm
    cases hm
  · rfl

/-- The number given out for a name has that name. -/
theorem name?_intern_self (t : NameTable) (name : String) :
    (t.intern name).2.name? (t.intern name).1 = some name := by
  cases h : t.find? name with
  | some n =>
    rw [intern_of_find?_eq_some h]
    exact find?_eq_some_iff.1 h
  | none =>
    rw [intern_of_find?_eq_none h]
    simp [name?, push, size]

/-- A number keeps its name. -/
theorem name?_intern_of_eq_some {t : NameTable} {n : NameId} {name : String}
    (h : t.name? n = some name) (other : String) :
    (t.intern other).2.name? n = some name := by
  cases ho : t.find? other with
  | some m => rwa [intern_of_find?_eq_some ho]
  | none =>
    rw [intern_of_find?_eq_none ho]
    obtain ⟨hlt, hn⟩ := Array.getElem?_eq_some_iff.1 h
    simp only [name?, push]
    rw [Array.getElem?_push_lt hlt, hn]

/-- Two numbers with the same name are the same. -/
theorem eq_of_name?_eq {t : NameTable} {n m : NameId} {name : String}
    (hn : t.name? n = some name) (hm : t.name? m = some name) : n = m := by
  have := find?_eq_some_iff.2 hn
  rw [find?_eq_some_iff.2 hm] at this
  exact (Option.some.inj this).symm

end NameTable

end PageBuilder.Dom
