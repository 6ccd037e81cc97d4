import FlatSyntax.FileSystem
import Mathlib.Data.List.Basic

/-! Normal forms of paths. What a path leads to is told by the components that its normal form
keeps, so a file that a path leads to is found under the normal form as well. -/
namespace FlatSyntax

/-- A file system in which the normal form of a path leads to every file that the path leads to. -/
def FileSystem.KeepsNormalForms (files : FileSystem) : Prop :=
  ∀ path bytes, files path = .ok (.file bytes) →
    files (FilePath.normalize path) = .ok (.file bytes)

namespace FilePath

/-- Whether a normal form keeps a component: it is neither empty nor does it stay in place. -/
def isKept (component : List Char) : Bool :=
  component ≠ [] ∧ component ≠ ['.']

theorem isKept_iff {component : List Char} :
    isKept component = true ↔ component ≠ [] ∧ component ≠ ['.'] :=
  decide_eq_true_iff

theorem not_isKept_iff {component : List Char} :
    ¬ isKept component = true ↔ component = [] ∨ component = ['.'] := by
  rw [isKept_iff, not_and_or, not_not, not_not]

theorem components_eq_splitOn (text : List Char) : components text = text.splitOn '/' := by
  induction text with
  | nil => rfl
  | cons c rest ih =>
      rw [components, List.splitOn_cons_eq_if_modifyHead, ih]
      obtain ⟨component, more, hSplit⟩ := List.exists_cons_of_ne_nil (List.splitOn_ne_nil '/' rest)
      rw [hSplit]
      by_cases hSlash : c = '/' <;> simp [hSlash]

theorem slash_notMem_components (text : List Char) :
    ∀ component ∈ components text, '/' ∉ component := by
  induction text with
  | nil => exact List.forall_mem_singleton.mpr List.not_mem_nil
  | cons c rest ih =>
      rw [components]
      by_cases hSlash : c = '/'
      · rw [if_pos hSlash]
        exact List.forall_mem_cons.mpr ⟨List.not_mem_nil, ih⟩
      · rw [if_neg hSlash]
        have hOne : '/' ∉ [c] := fun hMem => hSlash (List.mem_singleton.mp hMem).symm
        cases hMore : components rest with
        | nil => exact List.forall_mem_singleton.mpr hOne
        | cons component more =>
            rw [hMore] at ih
            obtain ⟨hHead, hTail⟩ := List.forall_mem_cons.mp ih
            exact List.forall_mem_cons.mpr ⟨by simp [hHead, Ne.symm hSlash], hTail⟩

/-- Components joined by slashes are split into the same components. -/
theorem components_intercalate {kept : List (List Char)} (hKept : kept ≠ [])
    (hSlash : ∀ component ∈ kept, '/' ∉ component) :
    components (['/'].intercalate kept) = kept := by
  rw [components_eq_splitOn, List.splitOn_intercalate '/' hSlash hKept]

theorem head?_intercalate {component : List Char} (hComponent : component ≠ [])
    (more : List (List Char)) :
    (['/'].intercalate (component :: more)).head? = component.head? := by
  obtain ⟨c, rest, rfl⟩ := List.exists_cons_of_ne_nil hComponent
  cases more <;> simp

theorem root_eq_nil {text : List Char} (hHead : text.head? ≠ some '/') : root text = [] := by
  unfold root
  split <;> first | rfl | exact absurd rfl hHead

/-- A relative path that keeps any component has a relative normal form with just these. -/
theorem normalize_relative {path : String} (hRelative : path.toList.head? ≠ some '/')
    (hSome : (components path.toList).filter isKept ≠ []) :
    (∃ c, (normalize path).toList.head? = some c ∧ c ≠ '/') ∧
      components (normalize path).toList = (components path.toList).filter isKept := by
  generalize hKept : (components path.toList).filter isKept = kept at hSome ⊢
  have hSlash : ∀ component ∈ kept, '/' ∉ component := by
    rw [← hKept]
    exact fun component hMem => slash_notMem_components _ component (List.mem_of_mem_filter hMem)
  obtain ⟨component, more, rfl⟩ := List.exists_cons_of_ne_nil hSome
  have hMem : component ∈ (components path.toList).filter isKept := hKept ▸ List.mem_cons_self
  obtain ⟨c, rest, rfl⟩ := List.exists_cons_of_ne_nil (isKept_iff.mp (List.of_mem_filter hMem)).1
  have hFirst : (['/'].intercalate ((c :: rest) :: more)).head? = some c :=
    head?_intercalate (List.cons_ne_nil c rest) more
  have hShown : (normalize path).toList = ['/'].intercalate ((c :: rest) :: more) := by
    obtain ⟨behind, hText⟩ := List.head?_eq_some_iff.mp hFirst
    change (components path.toList).filter (fun component => component ≠ [] ∧ component ≠ ['.']) =
      _ at hKept
    simp only [normalize, root_eq_nil hRelative, hKept, hText, List.nil_append,
      List.isEmpty_cons, Bool.false_eq_true, if_false, String.toList_ofList]
  rw [hShown]
  refine ⟨⟨c, hFirst, ?_⟩, components_intercalate hSome hSlash⟩
  rintro rfl
  exact hSlash _ List.mem_cons_self List.mem_cons_self

end FilePath

namespace FileTree

variable {tree : FileTree} {bytes : List UInt8}

/-- Outside the tree there are no files. -/
theorem follow_none_ne_file (components : List (List Char)) :
    tree.follow none components ≠ .ok (.file bytes) := by
  induction components with
  | nil => rintro ⟨⟩
  | cons component more ih =>
      rw [follow]
      split
      · exact ih
      · split
        · exact ih
        · rintro ⟨⟩

/-- Components that a normal form leaves out lead nowhere else. -/
theorem follow_filter_isKept {directory : Option (List (List Char))}
    {components : List (List Char)}
    (hFile : tree.follow directory components = .ok (.file bytes)) :
    tree.follow directory (components.filter FilePath.isKept) = .ok (.file bytes) := by
  induction components generalizing directory with
  | nil => cases hFile
  | cons component more ih =>
      rw [follow.eq_def] at hFile
      simp only at hFile
      by_cases hKept : FilePath.isKept component
      · have hOut := mt FilePath.not_isKept_iff.mpr (not_not.mpr hKept)
        rw [List.filter_cons_of_pos hKept, follow.eq_def]
        simp only
        rw [if_neg hOut] at hFile ⊢
        split at hFile
        · rename_i hUp
          rw [if_pos hUp]
          split at hFile <;> exact ih hFile
        · rename_i hDown
          rw [if_neg hDown]
          cases directory with
          | none => cases hFile
          | some names =>
              simp only at hFile ⊢
              cases hEntry : tree.entryAt? (names ++ [component]) with
              | none => simp [hEntry] at hFile
              | some entry =>
                  rw [hEntry] at hFile
                  cases entry with
                  | directory => exact ih hFile
                  | file found =>
                      -- Nothing is behind the file, so nothing that is kept is.
                      cases more with
                      | nil => exact hFile
                      | cons => cases hFile
      · rw [if_pos (FilePath.not_isKept_iff.mp hKept)] at hFile
        rw [List.filter_cons_of_neg hKept]
        exact ih hFile

/-- A path to a file starts in the tree, and its normal form has what it keeps of the path. -/
theorem fileSystem_keepsNormalForms (tree : FileTree) : tree.fileSystem.KeepsNormalForms := by
  intro path bytes hFile
  have hRelative : path.toList.head? ≠ some '/' := by
    intro hRoot
    simp only [fileSystem, hRoot, if_true] at hFile
    split at hFile
    · cases hFile
    · exact follow_none_ne_file _ hFile
  have hFollow : tree.follow (some []) ((FilePath.components path.toList).filter FilePath.isKept) =
      .ok (.file bytes) := by
    simp only [fileSystem, if_neg hRelative] at hFile
    split at hFile
    · cases hFile
    · exact follow_filter_isKept hFile
  have hSome : (FilePath.components path.toList).filter FilePath.isKept ≠ [] := by
    intro hNone
    rw [hNone] at hFollow
    cases hFollow
  obtain ⟨⟨c, hFirst, hOther⟩, hSplit⟩ := FilePath.normalize_relative hRelative hSome
  have hNonempty : (FilePath.normalize path).toList.isEmpty = false := by
    cases hText : (FilePath.normalize path).toList with
    | nil =>
        rw [hText] at hFirst
        cases hFirst
    | cons => rfl
  have hStill : (FilePath.normalize path).toList.head? ≠ some '/' := by
    rw [hFirst]
    exact fun hRoot => hOther (Option.some.inj hRoot)
  simp only [fileSystem, hNonempty, if_neg hStill, hSplit]
  exact hFollow

end FileTree

end FlatSyntax
