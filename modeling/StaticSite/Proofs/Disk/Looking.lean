import StaticSite.Proofs.Disk.Following
import StaticSite.Proofs.Fallible

/-!
# What look-ups find

When each look-up comes to a result.  What a look-up finds is the same on a disk that holds more.
-/

namespace StaticSite

theorem Fault.check_eq_ok {refused : Option Fault} :
    Fault.check refused = .ok () ↔ refused = none := by
  cases refused <;> simp [Fault.check]

namespace Disk

variable {disk larger : Disk} {path place root above : Path} {name : Text} {entry : Entry}

theorem checkCharacters_eq_ok {text : Text} : checkCharacters text = .ok () ↔ '\x00' ∉ text := by
  unfold checkCharacters
  split
  · next inside => simp [inside]
  · next outside => simp [outside]

theorem checkPathText_eq_ok {text : Text} :
    checkPathText text = .ok () ↔ '\x00' ∉ text ∧ Text.byteLength text ≤ maxPathBytes := by
  rw [checkPathText, Except.check_bind_eq_ok, checkCharacters_eq_ok]
  refine and_congr_right fun _ => ?_
  split
  · next long => simpa using long
  · next short => simpa [pure, Except.pure] using short

theorem resolve_eq_ok : disk.resolve path = .ok place ↔
    '\x00' ∉ path.text ∧ disk.follow false maxLinks (path.map .enter) [] = .ok place := by
  rw [resolve, Except.check_bind_eq_ok, checkCharacters_eq_ok]

theorem find_eq_ok : disk.find path = .ok entry ↔
    checkPathText path.text = .ok () ∧
      ∃ place, disk.resolve path = .ok place ∧ disk.entry? place = some entry := by
  rw [find, Except.check_bind_eq_ok, Except.bind_eq_ok]
  refine and_congr_right fun _ => exists_congr fun place => and_congr_right fun _ => ?_
  cases disk.entry? place <;> simp

theorem isDirectory_eq_true :
    disk.isDirectory path = true ↔ disk.find path = .ok .directory := by
  unfold isDirectory
  split
  · next found => simp [found]
  · next other => simpa using other

theorem isFile_eq_true :
    disk.isFile path = true ↔ ∃ bytes, disk.find path = .ok (.file bytes) := by
  unfold isFile
  split
  · next bytes found => simp [found]
  · next other => simpa using other

theorem readBytes_eq_ok {bytes : List UInt8} :
    disk.readBytes path = .ok bytes ↔ disk.find path = .ok (.file bytes) := by
  simp only [readBytes, Except.bind_eq_ok]
  constructor
  · rintro ⟨entry, found, isFile⟩
    cases entry with
    | file content =>
        cases isFile
        exact found
    | directory | link => cases isFile
  · exact fun found => ⟨_, found, rfl⟩

theorem readText_eq_ok {text : Text} : disk.readText path = .ok text ↔
    ∃ bytes, disk.readBytes path = .ok bytes ∧ Utf8.decode? bytes = some text := by
  rw [readText, Except.bind_eq_ok]
  refine exists_congr fun bytes => and_congr_right fun _ => ?_
  cases Utf8.decode? bytes <;> simp

theorem readSource_eq_ok {source : Text} : disk.readSource path = .ok source ↔
    ∃ bytes, disk.readBytes path = .ok bytes ∧ Utf8.decodeLossy bytes = source := by
  unfold readSource
  cases disk.readBytes path <;> simp [Except.map]

/-- The place of a path that ends in a name. -/
theorem placeOf_snoc_eq_ok : disk.placeOf (above ++ [name]) = .ok place ↔
    checkPathText (Path.text (above ++ [name])) = .ok () ∧
      ∃ parent, disk.follow false maxLinks (above.map .enter) [] = .ok parent ∧
        disk.entry? parent = some .directory ∧ Text.byteLength name ≤ maxNameBytes ∧
        place = parent ++ [name] := by
  rw [placeOf, Except.check_bind_eq_ok, Except.bind_eq_ok]
  simp only [Path.parent, Path.fileName?, List.dropLast_concat, List.getLast?_concat]
  refine and_congr_right fun _ => exists_congr fun parent => and_congr_right fun _ => ?_
  by_cases inside : disk.entry? parent = some .directory
  · by_cases short : Text.byteLength name ≤ maxNameBytes
    · simp [inside, short, Nat.not_lt.2 short, eq_comm]
    · simp [inside, short, Nat.lt_of_not_le short]
  · simp [inside]

theorem ne_nil_of_placeOf_snoc (found : disk.placeOf (above ++ [name]) = .ok place) :
    place ≠ [] := by
  obtain ⟨_, parent, _, _, _, rfl⟩ := placeOf_snoc_eq_ok.1 found
  exact List.append_ne_nil_of_right_ne_nil _ (List.cons_ne_nil _ _)

theorem placeOf_nil_eq_ok : disk.placeOf [] = .ok place ↔ place = [] := by
  have check : checkPathText (Path.text []) = .ok () := checkPathText_eq_ok.2 (by decide)
  simp [placeOf, check, Path.parent, Path.fileName?, Disk.follow, eq_comm]

theorem look_of_placeOf (found : disk.placeOf path = .ok place)
    (stands : disk.entry? place = some entry) : disk.look path .plain = .ok (place, entry) := by
  rw [look, found, Except.ok_bind, stands]

theorem placeOf_of_look (looked : disk.look path .plain = .ok (place, entry)) :
    disk.placeOf path = .ok place := by
  obtain ⟨other, found, stands⟩ := Except.bind_eq_ok.1 looked
  split at stands
  · cases stands
    exact found
  · cases stands

/-! ## Paths without links -/

theorem isCanonical_of_resolve (found : disk.resolve path = .ok place) :
    disk.IsCanonical place := by
  obtain ⟨left, leads⟩ := follow_eq_ok.1 (resolve_eq_ok.1 found).2
  exact leads.isCanonical isCanonical_nil

/-- A path without links leads to itself, if it leads anywhere. -/
theorem IsCanonical.resolve_eq (isCanonical : disk.IsCanonical place)
    (found : disk.resolve place = .ok path) : path = place := by
  have followed := (resolve_eq_ok.1 found).2
  rw [isCanonical.follow] at followed
  exact (Except.ok.inj followed).symm

theorem resolve_mono (within : disk.Within larger) (found : disk.resolve path = .ok place) :
    larger.resolve path = .ok place := by
  obtain ⟨characters, followed⟩ := resolve_eq_ok.1 found
  obtain ⟨left, leads⟩ := leads_of_follow_within followed within nofun
  exact resolve_eq_ok.2 ⟨characters, leads.follow⟩

theorem placeOf_mono (within : disk.Within larger) (found : disk.placeOf path = .ok place) :
    larger.placeOf path = .ok place := by
  rcases List.eq_nil_or_concat path with rfl | ⟨above, name, rfl⟩
  · exact placeOf_nil_eq_ok.2 (placeOf_nil_eq_ok.1 found)
  · rw [List.concat_eq_append, placeOf_snoc_eq_ok] at *
    obtain ⟨check, parent, followed, inside, short, rfl⟩ := found
    obtain ⟨left, leads⟩ := leads_of_follow_within followed within nofun
    exact ⟨check, parent, leads.follow, within _ _ inside, short, rfl⟩

/-- The place of a path on a disk is its place on every disk that holds more. -/
theorem place_eq_of_within {other : Path} (within : disk.Within larger)
    (found : disk.placeOf path = .ok other) (found' : larger.placeOf path = .ok place) :
    other = place :=
  Except.ok.inj ((placeOf_mono within found).symm.trans found')

/-- A path leads to what stands in its place, unless that is a link. -/
theorem resolve_of_placeOf (found : disk.placeOf path = .ok place) (within : disk.Within larger)
    (stands : larger.entry? place = some entry) (noLink : ∀ target, entry ≠ .link target) :
    larger.resolve path = .ok place := by
  rcases List.eq_nil_or_concat path with rfl | ⟨above, name, rfl⟩
  · rw [placeOf_nil_eq_ok.1 found]
    exact resolve_eq_ok.2 ⟨by decide, isCanonical_nil.follow false⟩
  · rw [List.concat_eq_append, placeOf_snoc_eq_ok] at found
    obtain ⟨check, parent, followed, inside, short, rfl⟩ := found
    obtain ⟨left, leads⟩ := leads_of_follow_within followed within nofun
    have step : larger.Leads left [.enter name] parent left (parent ++ [name]) :=
      .enter (within _ _ inside) short stands noLink .arrived
    rw [List.concat_eq_append]
    refine resolve_eq_ok.2 ⟨(checkPathText_eq_ok.1 check).1, ?_⟩
    rw [List.map_append]
    exact (leads.append step).follow

/-- What a path leads to can be reached from where any directory above it is. -/
theorem resolve_append {names : List Text} (atRoot : disk.resolve path = .ok root)
    (found : disk.resolve (path ++ names) = .ok place)
    (characters : '\x00' ∉ Path.text (root ++ names)) :
    disk.resolve (root ++ names) = .ok place := by
  obtain ⟨left, leads⟩ := follow_eq_ok.1 (resolve_eq_ok.1 found).2
  obtain ⟨_, leadsToRoot⟩ := follow_eq_ok.1 (resolve_eq_ok.1 atRoot).2
  rw [List.map_append] at leads
  obtain ⟨between, middle, front, behind⟩ := leads.split
  obtain rfl := front.place_eq leadsToRoot
  -- The root itself uses no links up, so those that led to it are left for what is behind it.
  obtain ⟨used, sum⟩ := Nat.exists_eq_add_of_le front.left_le
  have atSelf : disk.Leads maxLinks (middle.map .enter) [] maxLinks middle :=
    (isCanonical_of_resolve atRoot).leads
  have onward := behind.moreLinks used
  rw [← sum] at onward
  refine resolve_eq_ok.2 ⟨characters, ?_⟩
  rw [List.map_append]
  exact (atSelf.append onward).follow

end Disk

end StaticSite
