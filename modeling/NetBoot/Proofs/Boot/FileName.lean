/-
  NetBoot.Proofs.Boot.FileName — the paths under which boot files are fetched.

  A name stands for one full path: it is that path if it begins with a slash, and otherwise it is put
  behind one, its root mark dropped (`FullPath`, `fullPath_iff`). The file is fetched under as much of the
  full path as 128 bytes hold, whole characters only; a slash that is put in front counts as well. So the
  paths of boot files are the names that begin with a slash and fit, and each of these names is its own
  path (`bootFilePath_eq_self_iff`).
-/

import NetBoot.Boot.Chainload
import NetBoot.Proofs.Text.Cut

namespace NetBoot.Boot

open Text (cutString LongestWithin truncated)

/-! ## Full paths -/

/-- The full path that a name stands for. -/
inductive FullPath : List Char → List Char → Prop
  | rooted (rest : List Char) : FullPath ('/' :: rest) ('/' :: rest)
  | marked (rest : List Char) : FullPath ("(pxe)/".toList ++ rest) ('/' :: rest)
  | markedBare {rest : List Char} (h : rest.head? ≠ some '/') : FullPath ("(pxe)".toList ++ rest) ('/' :: rest)
  | bare {name : List Char} (hslash : name.head? ≠ some '/') (hmark : ¬ "(pxe)".toList <+: name) :
      FullPath name ('/' :: name)

theorem absolutePath_marked (rest : List Char) :
    absolutePath (pxeRoot ++ rest) = if rest.head? = some '/' then rest else '/' :: rest := by
  have hmark : pxeRoot.isPrefixOf (pxeRoot ++ rest) = true := List.isPrefixOf_iff_prefix.mpr (List.prefix_append _ _)
  rw [absolutePath, if_pos hmark, List.drop_left]

theorem absolutePath_unmarked {name : List Char} (h : ¬ pxeRoot <+: name) :
    absolutePath name = if name.head? = some '/' then name else '/' :: name := by
  rw [absolutePath, if_neg (mt List.isPrefixOf_iff_prefix.mp h)]

theorem absolutePath_rooted (rest : List Char) : absolutePath ('/' :: rest) = '/' :: rest := by
  have hmark : ¬ pxeRoot <+: '/' :: rest := by simp [pxeRoot]
  rw [absolutePath_unmarked hmark]
  rfl

/-- Each name stands for one path. -/
theorem fullPath_iff {name path : List Char} : FullPath name path ↔ path = absolutePath name := by
  constructor
  · intro h
    cases h with
    | rooted rest => rw [absolutePath_rooted]
    | marked rest => exact (absolutePath_marked ('/' :: rest)).symm
    | markedBare h => exact ((absolutePath_marked _).trans (if_neg h)).symm
    | bare hslash hmark => rw [absolutePath_unmarked hmark, if_neg hslash]
  · rintro rfl
    by_cases hmark : pxeRoot <+: name
    · obtain ⟨rest, rfl⟩ := hmark
      rw [absolutePath_marked]
      by_cases hslash : rest.head? = some '/'
      · obtain ⟨rest, rfl⟩ := List.head?_eq_some_iff.mp hslash
        exact .marked rest
      · rw [if_neg hslash]
        exact .markedBare hslash
    · rw [absolutePath_unmarked hmark]
      by_cases hslash : name.head? = some '/'
      · obtain ⟨rest, rfl⟩ := List.head?_eq_some_iff.mp hslash
        exact .rooted rest
      · rw [if_neg hslash]
        exact .bare hslash hmark

theorem FullPath.head?_eq {name path : List Char} (h : FullPath name path) : path.head? = some '/' := by
  cases h <;> rfl

/-! ## Paths of boot files -/

/-- The full path of a name as text. -/
theorem bootFilePath_eq (name : String) :
    bootFilePath name = cutString 128 (String.ofList (absolutePath name.toList)) := by
  rw [cutString, String.toList_ofList]
  rfl

theorem utf8ByteSize_bootFilePath_le (name : String) : (bootFilePath name).utf8ByteSize ≤ 128 := by
  rw [bootFilePath_eq]
  exact Text.utf8ByteSize_cutString_le _ _

/-- The slash has room. -/
theorem head?_bootFilePath (name : String) : (bootFilePath name).toList.head? = some '/' := by
  have hfull := (fullPath_iff.mpr rfl : FullPath name.toList (absolutePath name.toList)).head?_eq
  obtain ⟨rest, hrest⟩ := List.head?_eq_some_iff.mp hfull
  rw [bootFilePath, String.toList_ofList, hrest]
  rfl

/-- The paths of boot files are the names that are their own paths. -/
theorem bootFilePath_eq_self_iff {name : String} :
    bootFilePath name = name ↔ name.toList.head? = some '/' ∧ name.utf8ByteSize ≤ 128 := by
  constructor
  · intro h
    rw [← h]
    exact ⟨head?_bootFilePath name, utf8ByteSize_bootFilePath_le name⟩
  · intro h
    obtain ⟨hslash, hle⟩ := h
    obtain ⟨rest, hrest⟩ := List.head?_eq_some_iff.mp hslash
    rw [bootFilePath_eq, hrest, absolutePath_rooted, ← hrest, String.ofList_toList, Text.cutString_eq_self_iff]
    exact hle

/-- A boot file is fetched under the longest beginning of its full path that 128 bytes hold and that
    splits no character; this begins with a slash, and is its own path. Any text is cut in this way, at the
    place that going back from the limit byte by byte comes to: text within the limit is left as it is,
    and of longer text three bytes at most are missing up to the limit. -/
theorem boot_files_are_normalized :
    (∀ name : String, ∃ full : String, (∀ path : String, FullPath name.toList path.toList ↔ path = full) ∧
      LongestWithin 128 full (bootFilePath name) ∧
      (bootFilePath name).toList.head? = some '/' ∧ (bootFilePath name).utf8ByteSize ≤ 128 ∧
      bootFilePath (bootFilePath name) = bootFilePath name) ∧
    ∀ (max : Nat) (s : String),
      (∀ t : String, cutString max s = t ↔ LongestWithin max s t) ∧
      (cutString max s).toUTF8.data.toList = truncated max s.toUTF8.data.toList ∧
      min max s.utf8ByteSize ≤ (cutString max s).utf8ByteSize + 3 ∧
      (cutString max s = s ↔ s.utf8ByteSize ≤ max) := by
  constructor
  · intro name
    refine ⟨String.ofList (absolutePath name.toList), ?_, ?_, head?_bootFilePath name,
      utf8ByteSize_bootFilePath_le name, ?_⟩
    · intro path
      rw [fullPath_iff, String.ext_iff, String.toList_ofList]
    · rw [bootFilePath_eq]
      exact Text.longestWithin_cutString _ _
    · exact bootFilePath_eq_self_iff.mpr ⟨head?_bootFilePath name, utf8ByteSize_bootFilePath_le name⟩
  · intro max s
    exact ⟨fun t => Text.cutString_eq_iff, Text.toUTF8_cutString max s, Text.le_utf8ByteSize_cutString max s,
      Text.cutString_eq_self_iff⟩

/-- The slash in front takes the room of the last character, which has two bytes. -/
example : bootFilePath (String.ofList (pxeRoot ++ List.replicate 64 'é')) =
    String.ofList ('/' :: List.replicate 63 'é') := by decide +kernel

end NetBoot.Boot
