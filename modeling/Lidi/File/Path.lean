import Mathlib.Data.List.Basic

set_option relaxedAutoImplicit false
set_option autoImplicit false

/-!
# Paths

The part of `std::path` that the file transfer uses, with the rules of Unix.

## Main definitions

* `Path.components` — the components of a path.
* `Path.fileName` — the last component, if it is a normal one.
* `Path.join` — a path below a directory.
* `Path.SingleComponent` — a name that is one normal component.

## Main results

* `Path.singleComponent_of_fileName`, `Path.fileName_of_singleComponent` — a file name is a single
  component, and a single component is its own file name.
* `Path.components_join` — a single component is put directly below the directory.
-/

namespace Lidi.File.Path

/-- `std::path::Component`. -/
inductive Component
  | rootDir
  | curDir
  | parentDir
  | normal (name : String)
  deriving DecidableEq, Repr

/-- The component that a part between two separators stands for. An empty part and a `.` stand
for none. -/
def Component.ofPart (part : List Char) : Option Component :=
  if part = [] ∨ part = ['.'] then none
  else if part = ['.', '.'] then some .parentDir
  else some (.normal (String.ofList part))

/-- `Path::components`. A `.` counts at the start of a relative path only. -/
def components (path : String) : List Component :=
  let parts := path.toList.splitOn '/'
  let start :=
    if path.toList.head? = some '/' then [Component.rootDir]
    else if parts.head? = some ['.'] then [Component.curDir]
    else []
  start ++ parts.filterMap Component.ofPart

/-- `Path::file_name`. -/
def fileName (path : String) : Option String :=
  match (components path).getLast? with
  | some (.normal name) => some name
  | _ => none

/-- `Path::join`. -/
def join (dir path : String) : String :=
  if path.toList.head? = some '/' then path
  else if dir.toList.getLast?.all (· = '/') then dir ++ path
  else dir ++ "/" ++ path

/-- A name that is one normal component. -/
structure SingleComponent (name : String) : Prop where
  noSlash : '/' ∉ name.toList
  nonempty : name ≠ ""
  notCurDir : name ≠ "."
  notParentDir : name ≠ ".."

/-- No part between two separators has a separator in it. -/
lemma noSlash_of_mem_splitOn {cs part : List Char} (h : part ∈ cs.splitOn '/') : '/' ∉ part := by
  induction cs generalizing part with
  | nil => simp_all
  | cons c cs ih =>
    rw [List.splitOn_cons_eq_if_modifyHead] at h
    split at h
    · rcases List.mem_cons.mp h with rfl | h
      · simp
      · exact ih h
    · rename_i hc
      obtain ⟨first, others, hsplit⟩ := List.exists_cons_of_ne_nil (List.splitOn_ne_nil '/' cs)
      rw [hsplit, List.modifyHead_cons] at h
      rcases List.mem_cons.mp h with rfl | h
      · have hfirst : '/' ∉ first := ih (by simp [hsplit])
        simp only [beq_iff_eq] at hc
        simp only [List.mem_cons, not_or]
        exact ⟨fun h => hc h.symm, hfirst⟩
      · exact ih (by simp [hsplit, h])

/-- The normal components are the parts that are not special. -/
lemma Component.ofPart_eq_normal {part : List Char} {name : String} :
    Component.ofPart part = some (.normal name) ↔
      name.toList = part ∧ name ≠ "" ∧ name ≠ "." ∧ name ≠ ".." := by
  unfold Component.ofPart
  split
  · rename_i h
    simp only [reduceCtorEq, false_iff, not_and]
    rintro rfl hempty hcur
    rcases h with h | h
    · exact absurd (String.toList_inj.mp h) hempty
    · exact absurd (String.toList_inj.mp h) hcur
  · split
    · rename_i h
      simp only [Option.some.injEq, reduceCtorEq, false_iff, not_and, not_not]
      rintro rfl - -
      exact String.toList_inj.mp h
    · rename_i h h'
      simp only [Option.some.injEq, Component.normal.injEq]
      constructor
      · rintro rfl
        simp only [not_or] at h
        refine ⟨by simp, fun e => h.1 ?_, fun e => h.2 ?_, fun e => h' ?_⟩
        · simpa using congrArg String.toList e
        · simpa using congrArg String.toList e
        · simpa using congrArg String.toList e
      · rintro ⟨rfl, -⟩
        simp

/-- **The file name of a path is a single component.** -/
theorem singleComponent_of_fileName {path name : String} (h : fileName path = some name) :
    SingleComponent name := by
  unfold fileName at h
  split at h
  · rename_i name' hlast
    obtain rfl : name' = name := by simpa using h
    have hmem := List.mem_of_getLast? hlast
    simp only [components, List.mem_append, List.mem_filterMap] at hmem
    rcases hmem with hmem | ⟨part, hpart, hname⟩
    · split_ifs at hmem <;> simp at hmem
    · obtain ⟨rfl, hempty, hcur, hparent⟩ := Component.ofPart_eq_normal.mp hname
      exact ⟨noSlash_of_mem_splitOn hpart, hempty, hcur, hparent⟩
  · simp at h

/-- A single component is what it says. -/
lemma components_of_singleComponent {name : String} (h : SingleComponent name) :
    components name = [.normal name] := by
  have hpart : Component.ofPart name.toList = some (.normal name) :=
    Component.ofPart_eq_normal.mpr ⟨rfl, h.nonempty, h.notCurDir, h.notParentDir⟩
  have hhead : name.toList.head? ≠ some '/' := fun hslash =>
    h.noSlash (List.mem_of_head? hslash)
  have hdot : name.toList ≠ ['.'] := fun hdot => h.notCurDir (String.toList_inj.mp hdot)
  simp [components, List.splitOn_eq_singleton h.noSlash, hpart, hhead, hdot]

/-- **A single component is its own file name.** -/
theorem fileName_of_singleComponent {name : String} (h : SingleComponent name) :
    fileName name = some name := by
  rw [fileName, components_of_singleComponent h]
  rfl

/-- The components of a path that continues another one with a separator and a single component.
The other path may have the separator already. -/
lemma components_append {path dir name : String} (h : SingleComponent name) (front : List Char)
    (empties : List (List Char)) (hpath : path.toList = front ++ '/' :: name.toList)
    (hhead : path.toList.head? = dir.toList.head?)
    (hparts : dir.toList.splitOn '/' = front.splitOn '/' ++ empties)
    (hempties : empties.filterMap Component.ofPart = []) :
    components path = components dir ++ [.normal name] := by
  have hpart : Component.ofPart name.toList = some (.normal name) :=
    Component.ofPart_eq_normal.mpr ⟨rfl, h.nonempty, h.notCurDir, h.notParentDir⟩
  have hsplit : path.toList.splitOn '/' = front.splitOn '/' ++ [name.toList] := by
    rw [hpath, List.splitOn_append_cons_self, List.splitOn_eq_singleton h.noSlash]
  have hfirst : (path.toList.splitOn '/').head? = (dir.toList.splitOn '/').head? := by
    rw [hsplit, hparts, List.head?_append_of_ne_nil _ (List.splitOn_ne_nil '/' front),
      List.head?_append_of_ne_nil _ (List.splitOn_ne_nil '/' front)]
  have hnormal : (path.toList.splitOn '/').filterMap Component.ofPart =
      (dir.toList.splitOn '/').filterMap Component.ofPart ++ [.normal name] := by
    rw [hsplit, hparts, List.filterMap_append, List.filterMap_append, hempties]
    simp [hpart]
  simp only [components, hhead, hfirst, hnormal, List.append_assoc]

/-- **A single component is put directly below the directory.** -/
theorem components_join {name : String} (h : SingleComponent name) (dir : String) :
    components (join dir name) = components dir ++ [.normal name] := by
  have hrelative : name.toList.head? ≠ some '/' := fun hslash =>
    h.noSlash (List.mem_of_head? hslash)
  rw [join, if_neg hrelative]
  by_cases hnil : dir.toList = []
  · obtain rfl : dir = "" := String.toList_inj.mp hnil
    have hempty : components "" = [] := by simp [components, Component.ofPart]
    rw [hempty, List.nil_append, ← components_of_singleComponent h]
    simp
  · obtain ⟨front, last, hdir⟩ : ∃ front last, dir.toList = front ++ [last] :=
      ⟨_, _, (List.dropLast_append_getLast hnil).symm⟩
    by_cases hslash : last = '/'
    · subst hslash
      rw [if_pos (by simp [hdir])]
      refine components_append h front [[]] ?_ ?_ ?_ rfl
      · simp [hdir]
      · rw [String.toList_append, List.head?_append_of_ne_nil _ hnil]
      · rw [hdir, List.splitOn_append_cons_self, List.splitOn_nil]
    · rw [if_neg (by simpa [hdir] using hslash)]
      refine components_append h dir.toList [] ?_ ?_ ?_ rfl
      · simp
      · rw [String.toList_append, String.toList_append, List.append_assoc,
          List.head?_append_of_ne_nil _ hnil]
      · rw [List.append_nil]

end Lidi.File.Path
