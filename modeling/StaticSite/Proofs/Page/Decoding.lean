import StaticSite.Page.Stamp
import StaticSite.Project.Build
import StaticSite.Proofs.Text.Numerals
import StaticSite.Proofs.Text.Quotes

/-!
# Reading the names in a page

Editors read the names that a build has written from the page itself: the file and the token index
from the comment of a marker, and the source of the page from its first body tag.  Nothing is
escaped when names are written, so that it depends on the names what is read.
-/

namespace StaticSite

/-- What is in front of the file name in a marker. -/
def fileKey : Text := "file=".toList

/-- What is in front of the token index in a marker. -/
def indexKey : Text := "token_index=".toList

/-- What is in front of the source path in a body tag. -/
def sourcePathKey : Text := "data-source-path=".toList

/-- The end of a comment. -/
def commentEnd : Text := "-->".toList

/-- The file and the token index that the comment at the start of the text tells. -/
def readMarker? (text : Text) : Option (Text × Text) := do
  let comment ← Text.upTo? commentEnd text
  let file ← Text.quoted? fileKey comment
  let index ← Text.quoted? indexKey comment
  return (file, index)

/-- The source path that the first body tag tells. -/
def readSourcePath? (html : Text) : Option Text := do
  let tag ← Text.behind? PageStamps.bodyTag html
  Text.quoted? sourcePathKey tag

/-- File names that are read from a marker as they are written. -/
structure Decodable (file : Text) : Prop where
  unquoted : '"' ∉ file
  inComment : ¬ commentEnd <:+: file
  notKey : ¬ indexKey <:+ file

variable {page : Path} {mark file html front behind before after rest ending : Text} {index : Nat}

instance (file : Text) : Decidable (Decodable file) :=
  decidable_of_iff ('"' ∉ file ∧ ¬ commentEnd <:+: file ∧ ¬ indexKey <:+ file)
    ⟨fun ⟨unquoted, inComment, notKey⟩ => ⟨unquoted, inComment, notKey⟩,
      fun ⟨unquoted, inComment, notKey⟩ => ⟨unquoted, inComment, notKey⟩⟩

/-- Names without quotes, ends of tags and equals signs can be read. -/
theorem decodable_of_plain (unquoted : '"' ∉ file) (untagged : '>' ∉ file) (unkeyed : '=' ∉ file) :
    Decodable file where
  unquoted := unquoted
  inComment within := untagged (within.subset (by decide))
  notKey isKey := unkeyed (isKey.subset (by decide))

/-! ## Markers -/

/-- What is in front of the first quote of a marker. -/
def markerOpening : Text := "<!-- __TP_INC__ file=".toList

/-- The parts of a marker between its quotes, with `ending` in the place of the last one. -/
def markerParts (file : Text) (index : Nat) (ending : Text) : Text :=
  markerOpening ++ '"' :: (file ++ '"' :: (" token_index=".toList ++ '"' ::
    (Text.ofNat index ++ '"' :: ending)))

theorem includeMarker_eq : includeMarker file index = markerParts file index " -->".toList := by
  have opening : "<!-- __TP_INC__ file=\"".toList = markerOpening ++ ['"'] := by
    decide +kernel
  have between : "\" token_index=\"".toList = '"' :: (" token_index=".toList ++ ['"']) := by simp
  have closing : "\" -->".toList = '"' :: " -->".toList := by simp
  unfold includeMarker markerParts
  rw [opening, between, closing]
  simp only [List.append_assoc, List.cons_append, List.nil_append]

theorem markerParts_append : markerParts file index ending ++ rest
    = markerParts file index (ending ++ rest) := by
  unfold markerParts
  simp only [List.append_assoc, List.cons_append]

/-- A mark that is in no part but the file name is in the file name. -/
theorem infix_markerParts (unquoted : '"' ∉ mark)
    (noNumber : ∃ c ∈ mark, Numeral.isDigit c = false)
    (notOpening : Text.includes mark markerOpening = false)
    (notKey : Text.includes mark " token_index=".toList = false)
    (notEnding : Text.includes mark ending = false) :
    mark <:+: markerParts file index ending ↔ mark <:+: file := by
  have notInIndex : ¬ mark <:+: Text.ofNat index := by
    intro within
    obtain ⟨c, isIn, other⟩ := noNumber
    rw [Numeral.isDigit_of_mem_ofNat (within.subset isIn)] at other
    cases other
  unfold markerParts
  rw [Text.infix_append_cons unquoted, Text.infix_append_cons unquoted,
    Text.infix_append_cons unquoted, Text.infix_append_cons unquoted, or_iff_right notInIndex,
    or_iff_right (Text.not_infix notOpening), or_iff_right (Text.not_infix notKey),
    or_iff_left (Text.not_infix notEnding)]

/-- The comment ends behind the marker unless the file name ends it. -/
theorem upTo?_includeMarker (inComment : ¬ commentEnd <:+: file) :
    Text.upTo? commentEnd (includeMarker file index ++ rest)
      = some (markerParts file index [' ']) := by
  have split : includeMarker file index ++ rest
      = markerParts file index [' '] ++ (commentEnd ++ rest) := by
    rw [includeMarker_eq, markerParts_append, markerParts_append]
    simp [commentEnd]
  have first : Text.FirstBehind commentEnd (markerParts file index [' ']) := by
    rw [Text.firstBehind_iff (by decide), markerParts_append,
      infix_markerParts (by decide) ⟨'>', by decide, rfl⟩ (by decide) (by decide) (by decide)]
    exact inComment
  rw [Text.upTo?, split, Text.cut_append (by decide) first, Option.map_some]

/-- A file name that ends the comment leaves the value of the file key open. -/
theorem readMarker?_eq_none (unquoted : '"' ∉ file) (ends : commentEnd <:+: file) :
    readMarker? (includeMarker file index ++ rest) = none := by
  have found := mt (Text.cut_eq_none_iff (by decide)).1 (not_not_intro ends)
  obtain ⟨⟨left, right⟩, cutThere⟩ := Option.ne_none_iff_exists'.1 found
  obtain ⟨rfl, first⟩ := (Text.cut_eq_some_iff (by decide)).1 cutThere
  have split : includeMarker (left ++ commentEnd ++ right) index ++ rest
      = markerOpening ++ '"' :: left ++ (commentEnd ++ (right ++ '"' ::
        (" token_index=".toList ++ '"' ::
          (Text.ofNat index ++ '"' :: (" -->".toList ++ rest))))) := by
    rw [includeMarker_eq, markerParts_append]
    unfold markerParts
    simp only [List.append_assoc, List.cons_append]
  have first' : Text.FirstBehind commentEnd (markerOpening ++ '"' :: left) := by
    rw [Text.firstBehind_iff (by decide)] at first ⊢
    rw [List.append_assoc, List.cons_append, Text.infix_append_cons (by decide),
      or_iff_right (Text.not_infix (by decide))]
    exact first
  -- What is left of the comment has one quote, and no value ends.
  have free : '"' ∉ left := fun isIn => unquoted (by simp [isIn])
  have comment : Text.upTo? commentEnd (includeMarker (left ++ commentEnd ++ right) index ++ rest)
      = some (markerOpening ++ '"' :: left) := by
    rw [split, Text.upTo?, Text.cut_append (by decide) first', Option.map_some]
  have noFile : Text.quoted? fileKey (markerOpening ++ '"' :: left) = none := by
    rw [Text.quoted?_of_suffix (by decide) (by decide) (by decide),
      Text.upTo?_singleton_eq_none free]
  unfold readMarker?
  rw [comment, Option.bind_eq_bind, Option.bind_some, noFile, Option.bind_none]

section

variable (unquoted : '"' ∉ file) (inComment : ¬ commentEnd <:+: file)

include unquoted inComment

theorem readMarker?_of_inComment : readMarker? (includeMarker file index ++ rest)
    = some (file, if indexKey <:+ file then " token_index=".toList else Text.ofNat index) := by
  have digits : '"' ∉ Text.ofNat index :=
    fun isIn => absurd (Numeral.isDigit_of_mem_ofNat isIn) (by decide)
  have isFile : Text.quoted? fileKey (markerParts file index [' ']) = some file := by
    unfold markerParts
    rw [Text.quoted?_of_suffix (by decide) (by decide) (by decide),
      Text.upTo?_singleton unquoted]
  have isIndex : Text.quoted? indexKey (markerParts file index [' '])
      = some (if indexKey <:+ file then " token_index=".toList else Text.ofNat index) := by
    unfold markerParts
    rw [Text.quoted?_of_not_suffix (by decide) (by decide) (by decide)]
    split
    · next isKey =>
      rw [Text.quoted?_of_suffix (by decide) unquoted isKey,
        Text.upTo?_singleton (by decide)]
    · next notKey =>
      rw [Text.quoted?_of_not_suffix (by decide) unquoted notKey,
        Text.quoted?_of_suffix (by decide) (by decide) (by decide),
        Text.upTo?_singleton digits]
  unfold readMarker?
  rw [upTo?_includeMarker inComment, Option.bind_eq_bind, Option.bind_some, isFile,
    Option.bind_some, isIndex, Option.bind_some]
  rfl

end

theorem not_mem_of_readMarker? {text value index : Text}
    (read : readMarker? text = some (value, index)) : '"' ∉ value := by
  obtain ⟨comment, _, read⟩ := Option.bind_eq_some_iff.1 read
  obtain ⟨file, isFile, read⟩ := Option.bind_eq_some_iff.1 read
  obtain ⟨_, _, same⟩ := Option.bind_eq_some_iff.1 read
  cases same
  exact Text.not_mem_of_quoted? isFile

/-- What is read from a marker is what was written, exactly for the names that are decodable. -/
theorem readMarker?_includeMarker : readMarker? (includeMarker file index ++ rest)
    = some (file, Text.ofNat index) ↔ Decodable file := by
  constructor
  · intro read
    have unquoted := not_mem_of_readMarker? read
    have inComment : ¬ commentEnd <:+: file := by
      intro ends
      rw [readMarker?_eq_none unquoted ends] at read
      cases read
    refine ⟨unquoted, inComment, fun isKey => ?_⟩
    rw [readMarker?_of_inComment unquoted inComment, if_pos isKey, Option.some.injEq,
      Prod.mk.injEq] at read
    -- What is read instead of the index has a space in it.
    have isDigit : ' ' ∈ Text.ofNat index := by
      rw [← read.2]
      decide +kernel
    exact absurd (Numeral.isDigit_of_mem_ofNat isDigit) (by decide)
  · rintro ⟨unquoted, inComment, notKey⟩
    rw [readMarker?_of_inComment unquoted inComment, if_neg notKey]

end StaticSite
