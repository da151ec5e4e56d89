import Mathlib
import StaticSite.Proofs.Disk.Agreement
import StaticSite.Proofs.Disk.Members
import StaticSite.Proofs.LogicalName

/-!
# Files in far directories

The path of a directory may be so long that the paths of what is in it cannot be spelled any more.
A link to the directory still leads to its files, and they are read through the link from anywhere.
-/

namespace StaticSite

/-- The steps of a path text are the names of the path. -/
theorem PathStep.ofText_text {path : Path} (proper : ∀ name ∈ path, IsName name)
    (nonempty : path ≠ []) : PathStep.ofText path.text = path.map .enter := by
  have pieces : path.text.splitOn '/' = [] :: path := by
    have split := PathText.splitOn_join proper nonempty
    rw [Path.text, List.splitOn_cons_eq_if_modifyHead, if_pos (beq_self_eq_true _), split]
  have steps : path.filterMap ofPiece? = path.map .enter := by
    clear nonempty pieces
    induction path with
    | nil => rfl
    | cons name rest ih =>
      have isName := proper name List.mem_cons_self
      have step : ofPiece? name = some (.enter name) := by
        simp [ofPiece?, isName.nonempty, isName.notHere, isName.notUp]
      rw [List.filterMap_cons_some step, List.map_cons,
        ih fun other isOther => proper other (List.mem_cons_of_mem _ isOther)]
  have noSlash : path.text.getLast? ≠ some '/' := by
    obtain ⟨above, last, rfl⟩ := (List.eq_nil_or_concat path).resolve_left nonempty
    rw [List.concat_eq_append] at *
    have isLast := proper last (by simp)
    obtain ⟨front, whole⟩ : last <:+ Path.text (above ++ [last]) := by
      by_cases single : above = []
      · exact ⟨['/'], by simp [single, Path.text, PathText.join, List.intercalate]⟩
      · rw [Path.text_append single (List.cons_ne_nil _ _)]
        exact ⟨Path.text above ++ ['/'], by simp [PathText.join, List.intercalate]⟩
    intro slash
    rw [← whole, List.getLast?_append_of_ne_nil _ isLast.nonempty] at slash
    exact isLast.noSlash (List.mem_of_getLast? slash)
  rw [ofText, pieces, if_neg noSlash, List.append_nil, List.filterMap_cons_none (by rfl), steps]

namespace Disk

variable {path other deep : Path} {bytes : List UInt8}

/-- The directories down to a path, and nothing else. -/
def corridor (path : Path) : Disk :=
  (path.ancestors.filter (· ≠ [])).foldr (fun room disk => disk.put room .directory) .empty

theorem entry?_corridor : Disk.entry? (corridor path) other
    = if other <+: path then some .directory else none := by
  unfold entry?
  by_cases root : other = []
  · rw [if_pos root, if_pos (root ▸ List.nil_prefix)]
  · rw [if_neg root, corridor, get?_rooms]
    simp only [List.mem_filter, Path.mem_ancestors, root, decide_true, ne_eq, not_false_eq_true,
      and_true]
    rfl

/-- The path is as long as a path that is looked up can be, and it is not that of the project. -/
structure IsFar (deep : Path) : Prop where
  proper : ∀ name ∈ deep, IsName name ∧ Text.byteLength name ≤ maxNameBytes
  long : Text.byteLength deep.text = maxPathBytes
  apart : "site".toList ∉ deep

/-- A project beside a directory with a file, and with a link to that directory. -/
def linkedAwaySite (deep : Path) (bytes : List UInt8) : Disk :=
  (((corridor deep).put (deep ++ ["a".toList]) (.file bytes)).put ["site".toList] .directory).put
    ["site".toList, "l".toList] (.link deep.text)

theorem linkedAwaySite_entry_eq : Disk.entry? (linkedAwaySite deep bytes) other
    = if other = ["site".toList, "l".toList] then some (.link deep.text)
      else if other = ["site".toList] then some .directory
      else if other = deep ++ ["a".toList] then some (.file bytes)
      else if other <+: deep then some .directory else none := by
  rw [linkedAwaySite, entry?_put (by simp), entry?_put (by simp), entry?_put (by simp),
    entry?_corridor]

theorem linkedAwaySite_project :
    Disk.entry? (linkedAwaySite deep bytes) ["site".toList] = some .directory := by
  rw [linkedAwaySite_entry_eq, if_neg (by decide), if_pos rfl]

theorem linkedAwaySite_isCanonical : (linkedAwaySite deep bytes).IsCanonical ["site".toList] :=
  isCanonical_snoc isCanonical_nil rfl (by decide) linkedAwaySite_project nofun

theorem linkedAwaySite_canonical :
    (linkedAwaySite deep bytes).canonical ["site".toList] = .ok ["site".toList] := by
  rw [canonical, linkedAwaySite_isCanonical.spell_eq (List.cons_ne_nil _ _)]
  rfl

theorem looksLike_linkedAwaySite (deep : Path) (bytes others : List UInt8) :
    (linkedAwaySite deep bytes).LooksLike (linkedAwaySite deep others) := by
  intro path
  simp only [linkedAwaySite_entry_eq]
  split_ifs <;> rfl

namespace IsFar

variable (isFar : IsFar deep)

include isFar

theorem nonempty : deep ≠ [] := by
  rintro rfl
  exact absurd isFar.long (by decide)

/-- Nothing on the way to the file is in the project. -/
theorem apart_of_prefix (isFront : other <+: deep ++ ["a".toList]) (rest : Path) :
    other ≠ "site".toList :: rest := by
  rintro rfl
  obtain ⟨more, whole⟩ := isFront
  have isIn : "site".toList ∈ deep ++ ["a".toList] := by
    rw [← whole]
    simp
  rcases List.mem_append.1 isIn with isIn | isIn
  · exact isFar.apart isIn
  · exact absurd (List.mem_singleton.1 isIn) (by decide)

theorem entry?_file : Disk.entry? (linkedAwaySite deep bytes) (deep ++ ["a".toList])
    = some (.file bytes) := by
  rw [linkedAwaySite_entry_eq, if_neg (isFar.apart_of_prefix List.prefix_rfl _),
    if_neg (isFar.apart_of_prefix List.prefix_rfl _), if_pos rfl]

/-- In the project there is nothing but the link. -/
theorem holdsFile_project (bytes : List UInt8) (inside : ["site".toList] <+: other) :
    (linkedAwaySite deep bytes).holdsFile other = false := by
  obtain ⟨rest, rfl⟩ := inside
  have apart : ["site".toList] ++ rest ≠ deep ++ ["a".toList] := fun same =>
    isFar.apart_of_prefix List.prefix_rfl rest same.symm
  rw [holdsFile, linkedAwaySite_entry_eq, if_neg apart]
  split_ifs <;> rfl

theorem entry?_missing {rest : Path} (different : "site".toList :: rest ≠ ["site".toList])
    (noLink : "site".toList :: rest ≠ ["site".toList, "l".toList]) :
    Disk.entry? (linkedAwaySite deep bytes) ("site".toList :: rest) = none := by
  have notFile : "site".toList :: rest ≠ deep ++ ["a".toList] := fun same =>
    isFar.apart_of_prefix List.prefix_rfl rest same.symm
  have notAbove : ¬ "site".toList :: rest <+: deep := fun isFront =>
    isFar.apart_of_prefix (isFront.trans (List.prefix_append _ _)) rest rfl
  rw [linkedAwaySite_entry_eq, if_neg noLink, if_neg different, if_neg notFile, if_neg notAbove]

theorem entry?_front (isFront : other <+: deep) :
    Disk.entry? (linkedAwaySite deep bytes) other = some .directory := by
  have apart := isFar.apart_of_prefix (isFront.trans (List.prefix_append _ _))
  have shorter : other ≠ deep ++ ["a".toList] := by
    rintro rfl
    have := isFront.length_le
    simp at this
  rw [linkedAwaySite_entry_eq, if_neg (apart _), if_neg (apart _), if_neg shorter, if_pos isFront]

theorem isCanonical : (linkedAwaySite deep bytes).IsCanonical (deep ++ ["a".toList]) := by
  intro above name isFront
  rcases List.prefix_concat_iff.1 isFront with same | within
  · obtain ⟨rfl, sameName⟩ := List.append_inj' same rfl
    cases sameName
    exact ⟨isFar.entry?_front List.prefix_rfl, by decide, _, isFar.entry?_file, nofun⟩
  · have isName : name ∈ deep := within.subset (by simp)
    exact ⟨isFar.entry?_front ((List.prefix_append _ _).trans within), (isFar.proper name isName).2,
      _, isFar.entry?_front within, nofun⟩

/-- Through the link the file is read. -/
theorem resolve_link : (linkedAwaySite deep bytes).resolve
    ["site".toList, "l".toList, "a".toList] = .ok (deep ++ ["a".toList]) := by
  have steps : PathStep.ofText deep.text ++ [.enter "a".toList]
      = (deep ++ ["a".toList]).map .enter := by
    rw [PathStep.ofText_text (fun name isName => (isFar.proper name isName).1) isFar.nonempty,
      List.map_append, List.map_singleton]
  -- Behind the link every name stands where it says, since the path of the file has no link.
  have onward : (linkedAwaySite deep bytes).Leads 39
      (PathStep.ofText deep.text ++ [.enter "a".toList]) [] 39 (deep ++ ["a".toList]) :=
    steps ▸ isFar.isCanonical.leads
  have link : Disk.entry? (linkedAwaySite deep bytes) ["site".toList, "l".toList]
      = some (.link deep.text) := by
    rw [linkedAwaySite_entry_eq, if_pos rfl]
  have leads : (linkedAwaySite deep bytes).Leads maxLinks
      (["site".toList, "l".toList, "a".toList].map .enter) [] 39 (deep ++ ["a".toList]) :=
    .enter rfl (by decide) linkedAwaySite_project nofun
      (.link linkedAwaySite_project (by decide) link onward)
  exact resolve_eq_ok.2 ⟨by decide, leads.follow⟩

/-- The path through the link cannot be spelled, because that of the file is too long. -/
theorem overlong (bytes : List UInt8) : (linkedAwaySite deep bytes).Overlong ["site".toList]
    ["site".toList, "l".toList, "a".toList] := by
  refine ⟨⟨_, rfl⟩, (canonical_of_resolve isFar.resolve_link).resolve_left fun spelled => ?_⟩
  have short := byteLength_of_canonical spelled
  rw [Path.text_append isFar.nonempty (List.cons_ne_nil _ _), Text.byteLength_append,
    isFar.long] at short
  exact absurd short (by decide)

theorem readBytes_link : (linkedAwaySite deep bytes).readBytes
    ["site".toList, "l".toList, "a".toList] = .ok bytes :=
  readBytes_eq_ok.2 (find_eq_ok.2 ⟨by decide, _, isFar.resolve_link, isFar.entry?_file⟩)

end IsFar

/-- A directory with a path of the greatest length. -/
def farDirectory : Path :=
  List.replicate 21 (List.replicate 194 'd')

theorem isFar_farDirectory : IsFar farDirectory where
  proper name isName := by
    rw [List.eq_of_mem_replicate isName]
    refine ⟨⟨by decide, by decide, by decide, fun isIn => ?_⟩, by decide +kernel⟩
    exact absurd (List.eq_of_mem_replicate isIn) (by decide)
  long := by decide +kernel
  apart isIn := absurd (List.eq_of_mem_replicate isIn) (by decide)

end Disk

end StaticSite
