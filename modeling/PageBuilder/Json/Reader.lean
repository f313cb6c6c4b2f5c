import PageBuilder.Json.Fault

/-!
# Readers

A `Reader` takes a value off the front of the unread characters, and at least one character with it
(`Reader.shorter`). That is what lets `Reader.items` repeat a reader until the closing bracket: each
round has fewer characters left. What is read on the way leaves no more characters than there were
(`Reading.Leaves`).
-/

namespace PageBuilder.Json

/-- A value and the characters after it, or the fault that was met. -/
abbrev Reading (α : Type) := Except Fault (α × List Char)

/-- A reading that leaves no more than a number of characters, unless it fails. -/
def Reading.Leaves {α : Type} (x : Reading α) (n : Nat) : Prop :=
  ∀ ⦃v rest⦄, x = .ok (v, rest) → rest.length ≤ n

namespace Reading.Leaves

variable {α : Type} {x : Reading α} {m n : Nat} {rest : List Char}

theorem error (f : Fault) (n : Nat) : Leaves (.error f : Reading α) n := nofun

theorem ok (v : α) (h : rest.length ≤ n) : Leaves (.ok (v, rest)) n := by
  rintro _ _ ⟨⟩
  exact h

theorem mono (h : x.Leaves m) (hle : m ≤ n) : x.Leaves n := fun _ _ hx => Nat.le_trans (h hx) hle

end Reading.Leaves

/-- Takes values off the front of a text. -/
structure Reader (α : Type) where
  read : List Char → Reading α
  /-- A value is made of at least one character. -/
  shorter : ∀ {cs v rest}, read cs = .ok (v, rest) → rest.length < cs.length

/-- Applies a function to what is read. -/
def Reader.map {α β : Type} (f : α → β) (r : Reader α) : Reader β where
  read cs :=
    match r.read cs with
    | .ok (v, rest) => .ok (f v, rest)
    | .error e => .error e
  shorter {cs v rest} h := by
    split at h
    · next w rest' hread =>
      cases h
      exact r.shorter hread
    · cases h

/-! ## Blanks -/

/-- The characters that may stand between the parts of a JSON text. -/
def isSpace (c : Char) : Bool := c == ' ' || c == '\n' || c == '\t' || c == '\r'

/-- The characters from the next one that means something. -/
def skipSpace (cs : List Char) : List Char := cs.dropWhile isSpace

theorem length_skipSpace_le (cs : List Char) : (skipSpace cs).length ≤ cs.length :=
  (List.dropWhile_suffix _).length_le

theorem lt_of_skipSpace_eq_cons {cs rest : List Char} {c : Char} (h : skipSpace cs = c :: rest) :
    rest.length < cs.length := by
  have hskip := length_skipSpace_le cs
  rwa [h, List.length_cons] at hskip

/-! ## Brackets -/

/-- How items stand between two brackets, with commas between them. -/
structure Brackets where
  closing : Char
  /-- Whether every item begins with a key, and so with a quote. -/
  keyed : Bool
  /-- What is wrong if the text ends where an item or the closing bracket could stand. -/
  unfinished : Cause
  /-- What is wrong with anything but a comma or the closing bracket after an item. -/
  misplaced : Cause

namespace Brackets

variable (b : Brackets)

/-- Whether an item begins here, where one has to. -/
def start (cs : List Char) : Reading Bool :=
  if b.keyed && cs.head? != some '"' then .error (.next .keyMustBeString cs) else .ok (true, cs)

/-- Looks after the opening bracket whether an item follows, or else closes the brackets. -/
def first (cs : List Char) : Reading Bool :=
  match skipSpace cs with
  | [] => .error (.next b.unfinished [])
  | c :: rest => if c = b.closing then .ok (false, rest) else b.start (c :: rest)

/-- Looks for the item that a comma announces. -/
def afterComma (cs : List Char) : Reading Bool :=
  match skipSpace cs with
  | [] => .error (.next .endInValue [])
  | c :: rest =>
    if c = b.closing then .error (.next .trailingComma (c :: rest)) else b.start (c :: rest)

/-- Looks after an item whether another one follows, or else closes the brackets. -/
def next (cs : List Char) : Reading Bool :=
  match skipSpace cs with
  | [] => .error (.next b.unfinished [])
  | c :: rest =>
    if c = b.closing then .ok (false, rest)
    else if c = ',' then b.afterComma rest
    else .error (.next b.misplaced (c :: rest))

theorem leaves_start (cs : List Char) : (b.start cs).Leaves cs.length := by
  rw [start]
  split
  · exact .error _ _
  · exact .ok true (Nat.le_refl _)

theorem leaves_first (cs : List Char) : (b.first cs).Leaves cs.length := by
  fun_cases first b cs with
  | case1 => exact .error _ _
  | case2 rest hskip => exact .ok false (Nat.le_of_lt (lt_of_skipSpace_eq_cons hskip))
  | case3 c rest hskip => exact (b.leaves_start _).mono (lt_of_skipSpace_eq_cons hskip)

theorem leaves_afterComma (cs : List Char) : (b.afterComma cs).Leaves cs.length := by
  fun_cases afterComma b cs with
  | case1 | case2 => exact .error _ _
  | case3 c rest hskip => exact (b.leaves_start _).mono (lt_of_skipSpace_eq_cons hskip)

theorem leaves_next (cs : List Char) : (b.next cs).Leaves cs.length := by
  fun_cases next b cs with
  | case1 => exact .error _ _
  | case2 rest hskip => exact .ok false (Nat.le_of_lt (lt_of_skipSpace_eq_cons hskip))
  | case3 rest hskip =>
    exact (b.leaves_afterComma rest).mono (Nat.le_of_lt (lt_of_skipSpace_eq_cons hskip))
  | case4 => exact .error _ _

end Brackets

/-- A list stands between square brackets. -/
def listBrackets : Brackets where
  closing := ']'
  keyed := false
  unfinished := .endInList
  misplaced := .expectedListCommaOrEnd

/-- An object stands between braces. -/
def objectBrackets : Brackets where
  closing := '}'
  keyed := true
  unfinished := .endInObject
  misplaced := .expectedObjectCommaOrEnd

/-! ## Repetition between brackets -/

namespace Reader

variable {α : Type} (item : Reader α) (b : Brackets)

/-- The items that follow an item. -/
def tail (cs : List Char) : Reading (List α) :=
  match hnext : b.next cs with
  | .error f => .error f
  | .ok (false, rest) => .ok ([], rest)
  | .ok (true, start) =>
    match hread : item.read start with
    | .error f => .error f
    | .ok (v, after) =>
      have : after.length < cs.length :=
        Nat.lt_of_lt_of_le (item.shorter hread) (b.leaves_next cs hnext)
      match tail after with
      | .error f => .error f
      | .ok (vs, rest) => .ok (v :: vs, rest)
termination_by cs.length

/-- The items after an opening bracket. -/
def items (cs : List Char) : Reading (List α) :=
  match b.first cs with
  | .error f => .error f
  | .ok (false, rest) => .ok ([], rest)
  | .ok (true, start) =>
    match item.read start with
    | .error f => .error f
    | .ok (v, after) =>
      match item.tail b after with
      | .error f => .error f
      | .ok (vs, rest) => .ok (v :: vs, rest)

theorem leaves_tail (cs : List Char) : (item.tail b cs).Leaves cs.length := by
  fun_induction tail item b cs with
  | case1 | case3 | case4 => exact .error _ _
  | case2 cs rest hnext => exact .ok [] (b.leaves_next cs hnext)
  | case5 cs start hnext v after hread hshorter vs rest htail ih =>
    exact .ok (v :: vs) (Nat.le_trans (ih htail) (Nat.le_of_lt hshorter))

theorem leaves_items (cs : List Char) : (item.items b cs).Leaves cs.length := by
  fun_cases items item b cs with
  | case1 | case3 | case4 => exact .error _ _
  | case2 rest hfirst => exact .ok [] (b.leaves_first cs hfirst)
  | case5 start hfirst v after hread vs rest htail =>
    have hafter : after.length < cs.length :=
      Nat.lt_of_lt_of_le (item.shorter hread) (b.leaves_first cs hfirst)
    exact .ok (v :: vs) (Nat.le_trans (item.leaves_tail b after htail) (Nat.le_of_lt hafter))

end Reader

end PageBuilder.Json
