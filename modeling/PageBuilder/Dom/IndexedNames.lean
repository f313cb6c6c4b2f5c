import Mathlib.Data.List.Basic
import PageBuilder.Dom.Names

/-!
# Names with an index

A `NameTable` goes through its names to find one. `IndexedNames` keeps the same names and, beside
them, a map from each name to its number, which has 32 bits: it is the count of the names that are
there when the name comes in, without the bits that do not fit.
-/

namespace PageBuilder.Dom

/-- Names in the order in which they were first met, and the number of each. -/
structure IndexedNames where
  names : Array String := #[]
  numbers : Std.HashMap String UInt32 := ∅

namespace IndexedNames

/-- How many names there are. -/
def size (s : IndexedNames) : Nat := s.names.size

/-- The number of a name. -/
def find? (s : IndexedNames) (name : String) : Option UInt32 := s.numbers[name]?

/-- The name with a given number; a number not yet given out stands for the empty name. -/
def name (s : IndexedNames) (n : UInt32) : String := s.names[n.toNat]?.getD ""

/-- The number of a name, which comes in at the end of the names and into the index if it is new. -/
def intern (s : IndexedNames) (name : String) : UInt32 × IndexedNames :=
  match s.find? name with
  | some n => (n, s)
  | none =>
    let n := s.size.toUInt32
    (n, ⟨s.names.push name, s.numbers.insert name n⟩)

/-- The names after some more were met, one after another. -/
def after (s : IndexedNames) (names : List String) : IndexedNames :=
  names.foldl (fun s name => (s.intern name).2) s

/-- The numbers that are given out as names are met, one after another. -/
def numbersOf (s : IndexedNames) : List String → List UInt32
  | [] => []
  | name :: rest => (s.intern name).1 :: (s.intern name).2.numbersOf rest

/-- The names of a new tree: the empty name, then the names that pages are made of. -/
def initial : IndexedNames :=
  after {} ("" :: NameTable.pageTags ++ NameTable.pageAttributes)

end IndexedNames

end PageBuilder.Dom
