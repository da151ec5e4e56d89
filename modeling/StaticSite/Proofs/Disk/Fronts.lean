import StaticSite.Proofs.Disk.Looking
import StaticSite.Proofs.Text.Cutting

/-!
# Fronts of a path

The front of a path has a shorter text, and what something is found behind is a directory.  No path
text is refused for its length where a longer one is not.
-/

namespace StaticSite

namespace PathText

theorem join_append {front names : List Text} (nonempty : front ≠ []) (more : names ≠ []) :
    join (front ++ names) = join front ++ '/' :: join names := by
  induction front with
  | nil => exact absurd rfl nonempty
  | cons name rest ih =>
    cases rest with
    | nil =>
      rw [List.singleton_append, join, join, List.intercalate_cons_of_ne_nil more,
        List.intercalate_singleton, ← join, List.append_assoc, List.singleton_append]
    | cons second rest =>
      rw [List.cons_append, join, join, List.intercalate_cons_of_ne_nil (by simp),
        List.intercalate_cons_of_ne_nil (by simp), ← join, ← join, ih (by simp),
        List.append_assoc (name ++ _)]

end PathText

namespace Path

theorem text_append {front names : Path} (nonempty : front ≠ []) (more : names ≠ []) :
    text (front ++ names) = text front ++ '/' :: PathText.join names := by
  rw [text, text, PathText.join_append nonempty more, List.cons_append]

theorem text_prefix {front path : Path} (isFront : front <+: path) : text front <+: text path := by
  obtain ⟨names, rfl⟩ := isFront
  by_cases root : front = []
  · rw [root, text, text]
    exact ⟨_, rfl⟩
  · by_cases same : names = []
    · exact ⟨[], by rw [same, List.append_nil, List.append_nil]⟩
    · rw [text_append root same]
      exact List.prefix_append _ _

end Path

namespace Disk

variable {disk : Disk} {front names : Path} {entry : Entry}

theorem checkPathText_of_prefix {text longer : Text} (within : text <+: longer)
    (checked : checkPathText longer = .ok ()) : checkPathText text = .ok () := by
  obtain ⟨rest, rfl⟩ := within
  rw [checkPathText_eq_ok, Text.byteLength_append] at checked
  refine checkPathText_eq_ok.2 ⟨fun inside => checked.1 (List.mem_append_left _ inside), ?_⟩
  omega

/-- Under one front the shorter of two path texts is not refused. -/
theorem checkPathText_of_shorter {front names longer : Path} (nonempty : front ≠ [])
    (more : names ≠ []) (more' : longer ≠ []) (characters : '\x00' ∉ PathText.join names)
    (shorter : Text.byteLength (PathText.join names) ≤ Text.byteLength (PathText.join longer))
    (checked : checkPathText (Path.text (front ++ longer)) = .ok ()) :
    checkPathText (Path.text (front ++ names)) = .ok () := by
  rw [Path.text_append nonempty more', checkPathText_eq_ok, Text.byteLength_append,
    Text.byteLength] at checked
  obtain ⟨clean, short⟩ := checked
  rw [Path.text_append nonempty more, checkPathText_eq_ok, Text.byteLength_append, Text.byteLength]
  refine ⟨?_, by omega⟩
  intro inside
  rcases List.mem_append.1 inside with inFront | inNames
  · exact clean (List.mem_append_left _ inFront)
  · rcases List.mem_cons.1 inNames with isSlash | inside
    · cases isSlash
    · exact characters inside

/-- Text between two parts can be cut down to a slash. -/
theorem checkPathText_of_squeezed {front middle behind : Text} (nonempty : middle ≠ [])
    (checked : checkPathText (front ++ middle ++ behind) = .ok ()) :
    checkPathText (front ++ '/' :: behind) = .ok () := by
  rw [checkPathText_eq_ok, Text.byteLength_append, Text.byteLength_append] at checked
  obtain ⟨clean, short⟩ := checked
  have positive : Text.byteLength middle ≠ 0 :=
    fun empty => nonempty (Text.byteLength_eq_zero.1 empty)
  have slash : Char.utf8Size '/' = 1 := rfl
  rw [checkPathText_eq_ok, Text.byteLength_append, Text.byteLength]
  refine ⟨?_, by omega⟩
  simp only [List.mem_append, List.mem_cons, not_or] at clean ⊢
  exact ⟨clean.1.1, by decide, clean.2⟩

/-- What something is found behind is a directory. -/
theorem isDirectory_of_find_append (found : disk.find (front ++ names) = .ok entry)
    (more : names ≠ []) : disk.isDirectory front = true := by
  obtain ⟨checked, place, leads, _⟩ := find_eq_ok.1 found
  obtain ⟨left, whole⟩ := follow_eq_ok.1 (resolve_eq_ok.1 leads).2
  rw [List.map_append] at whole
  obtain ⟨between, middle, upTo, behind⟩ := whole.split
  have inside : disk.entry? middle = some .directory := by
    obtain ⟨name, rest, rfl⟩ := List.exists_cons_of_ne_nil more
    cases behind with
    | enter inside _ _ _ _ => exact inside
    | link inside _ _ _ => exact inside
  have checked := checkPathText_of_prefix (Path.text_prefix (List.prefix_append front _)) checked
  have leads : disk.resolve front = .ok middle :=
    resolve_eq_ok.2 ⟨(checkPathText_eq_ok.1 checked).1, upTo.follow⟩
  exact isDirectory_eq_true.2 (find_eq_ok.2 ⟨checked, middle, leads, inside⟩)

end Disk

end StaticSite
