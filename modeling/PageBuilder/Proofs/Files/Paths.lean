import Mathlib.Data.String.Basic
import PageBuilder.Files.Disk
import PageBuilder.Files.Access

/-!
# Folders and file names

A path to a file is a folder and a name. The folder is empty or ends in a slash, and the name has no
slash in it. Exchanging an extension and following a path both cut it there
(`Path.withExtension_append`, `Disk.parts_append`), so that a path with another extension leads to
an entry of the same directory.
-/

namespace PageBuilder.Files

/-- What can stand before a name in a path. -/
def IsFolder (folder : List Char) : Prop := folder = [] ∨ ∃ above, folder = above ++ ['/']

/-- A text that names an entry of a directory, and not the directory itself or the one above. -/
structure IsFileName (name : List Char) : Prop where
  slash_notMem : '/' ∉ name
  ne_nil : name ≠ []
  ne_dot : name ≠ ['.']
  ne_dots : name ≠ ['.', '.']

/-- The name of a path's file ends in a dot and the extension, with a stem before them. A stem that
is a dot does not count, since it is no name without its extension. -/
def HasExtension (path extension : String) : Prop :=
  ∃ folder stem, IsFolder folder ∧ '/' ∉ stem ∧ stem ≠ [] ∧ stem ≠ ['.'] ∧
    path.toList = folder ++ (stem ++ '.' :: extension.toList)

variable {folder name stem extension : List Char}

/-- A list is cut at the last of the elements that are like one of its own. -/
theorem exists_append_cons_of_mem {c : Char} {cs : List Char} (h : c ∈ cs) :
    ∃ before after, cs = before ++ c :: after ∧ c ∉ after := by
  obtain ⟨after, before, hrev, hafter⟩ := List.eq_append_cons_of_mem (List.mem_reverse.2 h)
  refine ⟨before.reverse, after.reverse, ?_, mt List.mem_reverse.1 hafter⟩
  simpa using congrArg List.reverse hrev

/-- Every path is a folder and what stands after its last slash. -/
theorem exists_folder_append (path : List Char) :
    ∃ folder name, IsFolder folder ∧ '/' ∉ name ∧ path = folder ++ name := by
  by_cases h : '/' ∈ path
  · obtain ⟨above, name, rfl, hname⟩ := exists_append_cons_of_mem h
    exact ⟨above ++ ['/'], name, .inr ⟨above, rfl⟩, hname, by simp⟩
  · exact ⟨[], path, .inl rfl, h, rfl⟩

theorem all_bne_reverse {c : Char} {cs : List Char} (h : c ∉ cs) :
    ∀ a ∈ cs.reverse, (a != c) = true := by
  intro a ha
  rw [bne_iff_ne]
  rintro rfl
  exact h (List.mem_reverse.1 ha)

/-! ## Names with another extension -/

namespace Path

/-- A path that ends in a name has no slashes and dots to be dropped. -/
theorem dropEnding_reverse_append (folder : List Char) (hslash : '/' ∉ name) (hnil : name ≠ [])
    (hdot : name ≠ ['.']) :
    dropEnding (name.reverse ++ folder.reverse) = name.reverse ++ folder.reverse := by
  have hback : '/' ∉ name.reverse := mt List.mem_reverse.1 hslash
  -- the two rules need a slash at the end, or a dot with a slash before it
  rw [dropEnding]
  · intro rest hrest
    cases hrev : name.reverse with
    | nil => exact hnil (List.reverse_eq_nil_iff.1 hrev)
    | cons c cs => simp_all
  · intro rest hrest
    cases hrev : name.reverse with
    | nil => exact hnil (List.reverse_eq_nil_iff.1 hrev)
    | cons c cs =>
      cases cs with
      | nil =>
        apply hdot
        rw [← List.reverse_reverse name, hrev]
        simp_all
      | cons c' cs => simp_all

/-- The last name of a path is what stands after its last slash, unless that means a directory. -/
theorem splitName?_append (hfolder : IsFolder folder) (hslash : '/' ∉ name) (hnil : name ≠ [])
    (hdot : name ≠ ['.']) :
    splitName? (folder ++ name) = if name = ['.', '.'] then none else some (folder, name) := by
  have hall := all_bne_reverse hslash
  have htake : folder.reverse.takeWhile (· != '/') = [] := by
    obtain rfl | ⟨above, rfl⟩ := hfolder <;> simp
  have hdrop : folder.reverse.dropWhile (· != '/') = folder.reverse := by
    obtain rfl | ⟨above, rfl⟩ := hfolder <;> simp
  have hbefore : ((name.reverse ++ folder.reverse).dropWhile (· != '/')).reverse = folder := by
    rw [List.dropWhile_append_of_pos hall, hdrop, List.reverse_reverse]
  have hlast : ((name.reverse ++ folder.reverse).takeWhile (· != '/')).reverse = name := by
    rw [List.takeWhile_append_of_pos hall, htake, List.append_nil, List.reverse_reverse]
  rw [splitName?, List.reverse_append, dropEnding_reverse_append folder hslash hnil hdot, hbefore]
  simp only [hlast]
  refine if_congr ?_ rfl rfl
  exact (or_iff_right hnil).trans (or_iff_right hdot)

theorem splitName?_of_isFileName (hfolder : IsFolder folder) (hname : IsFileName name) :
    splitName? (folder ++ name) = some (folder, name) := by
  rw [splitName?_append hfolder hname.slash_notMem hname.ne_nil hname.ne_dot,
    if_neg hname.ne_dots]

theorem splitDot_append (hstem : stem ≠ []) (hextension : '.' ∉ extension) :
    splitDot (stem ++ '.' :: extension) = (stem, extension) := by
  have hall := all_bne_reverse hextension
  have hrev : (stem ++ '.' :: extension).reverse = extension.reverse ++ '.' :: stem.reverse := by
    simp
  rw [splitDot, hrev, List.takeWhile_append_of_pos hall, List.dropWhile_append_of_pos hall]
  cases hcs : stem.reverse with
  | nil => exact absurd (List.reverse_eq_nil_iff.1 hcs) hstem
  | cons c cs =>
    have hback : (c :: cs).reverse = stem := by rw [← hcs, List.reverse_reverse]
    simpa [hcs] using hback

theorem splitDot_of_notMem_tail (h : '.' ∉ name.tail) : splitDot name = (name, []) := by
  cases name with
  | nil => rfl
  | cons c cs =>
    have hall := all_bne_reverse (show '.' ∉ cs from h)
    rw [splitDot, List.reverse_cons, List.dropWhile_append_of_pos hall]
    by_cases hc : c = '.' <;> simp [hc]

/-- A name has a stem and an extension, or at most one dot, which is its first character. -/
theorem exists_extension_or (name : List Char) :
    (∃ stem extension, stem ≠ [] ∧ '.' ∉ extension ∧ name = stem ++ '.' :: extension) ∨
      '.' ∉ name.tail := by
  by_cases h : '.' ∈ name.tail
  · obtain ⟨stem, extension, htail, hextension⟩ := exists_append_cons_of_mem h
    cases name with
    | nil => cases h
    | cons c cs => exact .inl ⟨c :: stem, extension, by simp, hextension, congrArg (c :: ·) htail⟩
  · exact .inr h

theorem splitDot_fst_ne_nil (h : name ≠ []) : (splitDot name).1 ≠ [] := by
  obtain ⟨stem, extension, hstem, hextension, rfl⟩ | htail := exists_extension_or name
  · rwa [splitDot_append hstem hextension]
  · rwa [splitDot_of_notMem_tail htail]

/-- What a name becomes with another extension. Without its own, it may be the directory above. -/
def renamed (name extension : List Char) : List Char :=
  if (splitDot name).1 = ['.'] then ['.', '.'] else (splitDot name).1 ++ '.' :: extension

/-- The dot of an extension that is cut off stays. -/
theorem dropExtension_append {old : List Char} (hfolder : IsFolder folder)
    (hname : IsFileName (stem ++ '.' :: old)) (hstem : stem ≠ []) (hold : '.' ∉ old) :
    dropExtension (folder ++ (stem ++ '.' :: old)) = folder ++ (stem ++ ['.']) := by
  have hpath : folder ++ (stem ++ '.' :: old) = folder ++ (stem ++ ['.']) ++ old := by simp
  simp only [dropExtension, splitName?_of_isFileName hfolder hname, splitDot_append hstem hold]
  rw [hpath, List.length_append, Nat.add_sub_cancel, List.take_left]

theorem addExtension_dropExtension (hfolder : IsFolder folder) (hname : IsFileName name) :
    addExtension (dropExtension (folder ++ name)) extension = folder ++ renamed name extension := by
  obtain ⟨stem, old, hstem, hold, rfl⟩ | htail := exists_extension_or name
  · have hslash : '/' ∉ stem ++ ['.'] := fun h => hname.slash_notMem (by simp_all)
    rw [dropExtension_append hfolder hname hstem hold, renamed, splitDot_append hstem hold,
      addExtension, splitName?_append hfolder hslash (by simp) (by simpa using hstem)]
    by_cases hdot : stem = ['.']
    · simp [hdot]
    · have hdots : stem ++ ['.'] ≠ ['.', '.'] := by simpa [List.append_eq_cons_iff] using hdot
      simp [hdot, hdots, splitDot_append hstem]
  · have hall : splitDot name = (name, []) := splitDot_of_notMem_tail htail
    have hkept : dropExtension (folder ++ name) = folder ++ name := by
      simp only [dropExtension, splitName?_of_isFileName hfolder hname, hall, List.length_nil,
        Nat.sub_zero, List.take_length]
    rw [hkept, addExtension, splitName?_of_isFileName hfolder hname, renamed, hall,
      if_neg hname.ne_dot]
    simp [hall]

/-- A name keeps its extension exactly if it has it after a stem that is a name. -/
theorem renamed_eq_self_iff (hname : IsFileName name) (hextension : '.' ∉ extension) :
    renamed name extension = name ↔
      ∃ stem, stem ≠ [] ∧ stem ≠ ['.'] ∧ name = stem ++ '.' :: extension := by
  constructor
  · intro h
    rw [renamed] at h
    split_ifs at h with hdot
    · exact absurd h.symm hname.ne_dots
    · exact ⟨(splitDot name).1, splitDot_fst_ne_nil hname.ne_nil, hdot, h.symm⟩
  · rintro ⟨stem, hstem, hdot, rfl⟩
    rw [renamed, splitDot_append hstem hextension, if_neg hdot]

theorem renamed_ne_nil : renamed name extension ≠ [] := by
  rw [renamed]
  split_ifs <;> simp

theorem slash_notMem_renamed (hname : '/' ∉ name) (hextension : '/' ∉ extension) :
    '/' ∉ renamed name extension := by
  have hstem : '/' ∉ (splitDot name).1 := by
    obtain ⟨stem, old, hstem, hold, rfl⟩ | htail := exists_extension_or name
    · rw [splitDot_append hstem hold]
      exact fun h => hname (List.mem_append_left _ h)
    · rwa [splitDot_of_notMem_tail htail]
  rw [renamed]
  split_ifs <;> simp [hstem, hextension]

/-- A path with another extension is the same folder with the name renamed. -/
theorem withExtension_append (hfolder : IsFolder folder) (hname : IsFileName name) (e : String) :
    withExtension (String.ofList (folder ++ name)) e =
      String.ofList (folder ++ renamed name e.toList) := by
  rw [withExtension, String.toList_ofList, addExtension_dropExtension hfolder hname]

/-- A path keeps its extension exactly if it has it. -/
theorem withExtension_eq_self_iff {e : String} (hfolder : IsFolder folder)
    (hname : IsFileName name) (hslash : '/' ∉ e.toList) (hdot : '.' ∉ e.toList) :
    withExtension (String.ofList (folder ++ name)) e = String.ofList (folder ++ name) ↔
      HasExtension (String.ofList (folder ++ name)) e := by
  rw [withExtension_append hfolder hname, String.ofList_inj, List.append_cancel_left_eq,
    renamed_eq_self_iff hname hdot, HasExtension, String.toList_ofList]
  constructor
  · rintro ⟨stem, hstem, hdot, rfl⟩
    have hstem' : '/' ∉ stem := fun h => hname.slash_notMem (List.mem_append_left _ h)
    exact ⟨folder, stem, hfolder, hstem', hstem, hdot, rfl⟩
  · rintro ⟨folder', stem, hfolder', hstem', hstem, hdot, hpath⟩
    -- a path has one last name
    have hdots : stem ++ '.' :: e.toList ≠ ['.', '.'] := by
      match stem with
      | [] => exact absurd rfl hstem
      | [c] => simp_all
      | c :: c' :: cs => simp
    have hname' : IsFileName (stem ++ '.' :: e.toList) :=
      ⟨by simp [hstem', hslash], by simp, by simp [List.append_eq_cons_iff, hstem], hdots⟩
    have hcut := splitName?_of_isFileName hfolder hname
    rw [hpath, splitName?_of_isFileName hfolder' hname', Option.some_inj, Prod.mk.injEq] at hcut
    exact ⟨stem, hstem, hdot, hcut.2.symm⟩

end Path

/-! ## The parts of a path -/

namespace Disk

open String

/-- Splitting at a slash from a place in a text: what is read of the current part is `part`. -/
theorem splitOnAux_slash (before part rest : List Char) (acc : List String) :
    splitOnAux (ofList (before ++ part ++ rest)) "/" ⟨utf8Len before⟩ ⟨utf8Len (before ++ part)⟩ 0
        acc =
      acc.reverse ++ (List.splitOnPPrepend (· == '/') rest part.reverse).map ofList := by
  have hfirst : Pos.Raw.get "/" 0 = '/' := by decide +kernel
  have hnext : Pos.Raw.next "/" 0 = ⟨1⟩ := by decide +kernel
  have hend : Pos.Raw.atEnd "/" ⟨1⟩ = true := by decide +kernel
  induction rest generalizing before part acc with
  | nil =>
    have hpart := extract_of_valid before part []
    rw [← utf8Len_append] at hpart
    rw [splitOnAux, if_pos ((atEnd_of_valid (before ++ part) []).2 rfl), hpart]
    simp
  | cons c rest ih =>
    have hpart := extract_of_valid before part (c :: rest)
    have hafter : Pos.Raw.next (ofList (before ++ part ++ c :: rest)) ⟨utf8Len (before ++ part)⟩ =
        ⟨utf8Len (before ++ part ++ [c])⟩ := by
      rw [next_of_valid, utf8Len_append (before ++ part)]
      simp
    have htext : before ++ part ++ c :: rest = before ++ part ++ [c] ++ rest := by simp
    rw [← utf8Len_append] at hpart
    rw [splitOnAux, if_neg (mt (atEnd_of_valid (before ++ part) (c :: rest)).1 (by simp)),
      get_of_valid, hfirst, hnext, List.headD_cons]
    dsimp only
    rw [if_pos hend]
    by_cases hc : c = '/'
    · have hstart : Pos.Raw.unoffsetBy ⟨utf8Len (before ++ part ++ [c])⟩ ⟨1⟩ =
          ⟨utf8Len (before ++ part)⟩ := by
        subst hc
        rw [utf8Len_append (before ++ part)]
        rfl
      have hrest := ih (before ++ part ++ [c]) [] (ofList part :: acc)
      rw [List.append_nil] at hrest
      rw [hafter, hstart, hpart, htext, if_pos (by simpa using hc), hrest]
      simp [hc, List.splitOnPPrepend_cons_eq_if]
    · have hsame : Pos.Raw.unoffsetBy ⟨utf8Len (before ++ part)⟩ 0 = ⟨utf8Len (before ++ part)⟩ :=
        rfl
      have hrest := ih before (part ++ [c]) acc
      rw [← List.append_assoc] at hrest
      rw [if_neg (by simpa using hc), hsame, hafter, htext, hrest]
      simp [hc, List.splitOnPPrepend_cons_eq_if]

theorem splitOn_slash (s : String) :
    s.splitOn "/" = (s.toList.splitOnP (· == '/')).map ofList := by
  have h := splitOnAux_slash [] [] s.toList []
  rw [splitOn, if_neg (by decide)]
  simpa using h

theorem parts_append (hfolder : IsFolder folder) (hslash : '/' ∉ name) (hnil : name ≠ []) :
    parts (ofList (folder ++ name)) = parts (ofList folder) ++ [ofList name] := by
  have hone : name.splitOnP (· == '/') = [name] := by
    refine List.splitOnP_eq_singleton fun c hc => ?_
    rw [beq_eq_false_iff_ne]
    rintro rfl
    exact hslash hc
  have hsome : (ofList name != "") = true := by simpa [← toList_eq_nil_iff] using hnil
  simp only [parts, splitOn_slash, toList_ofList]
  obtain rfl | ⟨above, rfl⟩ := hfolder
  · simp [hone, hsome, List.splitOnP_nil]
  · rw [List.append_assoc, List.singleton_append,
      List.splitOnP_append_cons (p := (· == '/')) above name (beq_self_eq_true '/'), hone,
      List.splitOnP_append_cons (p := (· == '/')) above [] (beq_self_eq_true '/'),
      List.splitOnP_nil]
    simp [hsome]

end Disk

end PageBuilder.Files
