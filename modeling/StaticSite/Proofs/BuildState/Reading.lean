import StaticSite.BuildState
import StaticSite.Proofs.Instants
import StaticSite.Proofs.Json.Reading

/-!
# States that are read back

A recorded state is read back from the text that writing makes of it, whatever its times, numbers
and error.
-/

namespace StaticSite

open Json Numeral

variable {rows : List (Text × Value)} {value : Value}

/-! ## Parts of values -/

namespace Json.Value

/-- Members with known names, each of which occurs once, are all found. -/
theorem fields?_escape (known : List Text) (isKnown : ∀ row ∈ rows, row.1 ∈ known)
    (distinct : (rows.map (·.1)).Nodup) :
    fields? known (rows.map fun (name, value) => (escape name, value)) = some rows := by
  induction rows with
  | nil => rfl
  | cons row rows ih =>
    obtain ⟨name, value⟩ := row
    obtain ⟨fresh, distinct⟩ := List.nodup_cons.1 distinct
    have others := ih (fun row isIn => isKnown row (List.mem_cons_of_mem _ isIn)) distinct
    have once : rows.any (·.1 = name) = false := by
      rw [List.any_eq_false]
      intro row isIn same
      exact fresh (List.mem_map.2 ⟨row, isIn, of_decide_eq_true same⟩)
    have contained : known.contains name = true :=
      List.contains_iff_mem.2 (isKnown _ List.mem_cons_self)
    rw [List.map_cons, fields?, unescape?_escape, others]
    simp only [Option.bind_eq_bind, Option.bind_some, contained, once]
    rfl

@[simp] theorem text?_ofText (text : Text) : (ofText text).text? = some text :=
  unescape?_escape text

@[simp] theorem instant?_ofText_write (instant : Instant) :
    (ofText instant.write).instant? = some instant := by
  rw [instant?, text?_ofText]
  exact Instant.read?_write instant

@[simp] theorem word?_ofNat (word : UInt64) : (ofNat word.toNat).word? = some word.toNat := by
  have digits : (Text.ofNat word.toNat).all isDigit = true :=
    List.all_eq_true.2 fun _ => isDigit_of_mem_ofNat
  have fits : value 10 (Text.ofNat word.toNat) < UInt64.size := by
    rw [value_ofNat]
    exact word.toNat_lt_size
  rw [ofNat, word?, if_pos ⟨digits, fits⟩, value_ofNat]

/-- What is missing is written as null, which nothing else is read from. -/
theorem optional?_getD {α : Type} {read : Value → Option α} {write : α → Value}
    (reads : ∀ a, read (write a) = some a) (notNull : ∀ a, write a ≠ .null) (option : Option α) :
    ((option.map write).getD .null).optional? read = some option := by
  cases option with
  | none => rfl
  | some a =>
    rw [Option.map_some, Option.getD_some, optional?, reads a]
    · rfl
    · exact notNull a

theorem wellFormed_object (rows : List (Text × Value)) (each : ∀ row ∈ rows, WellFormed row.2) :
    WellFormed (.object (rows.map fun (name, value) => (escape name, value))) := by
  refine .object ?_ ?_
  · intro member isIn
    obtain ⟨row, _, rfl⟩ := List.mem_map.1 isIn
    exact isString_escape row.1
  · intro member isIn
    obtain ⟨row, isRow, rfl⟩ := List.mem_map.1 isIn
    exact each row isRow

theorem wellFormed_getD {α : Type} {write : α → Value} (each : ∀ a, WellFormed (write a))
    (option : Option α) : WellFormed ((option.map write).getD .null) := by
  cases option with
  | none => exact .null
  | some a => exact each a

end Json.Value

/-! ## Records and states -/

namespace BuildRecord

/-- The members of a written record, under their names. -/
def fields (record : BuildRecord) : List (Text × Value) :=
  [("success".toList, .boolean record.success),
   ("started_at".toList, .ofText record.startedAt.write),
   ("finished_at".toList, .ofText record.finishedAt.write),
   ("duration_ms".toList, .ofNat record.durationMs.toNat),
   ("files".toList, .ofNat record.files.toNat),
   ("error".toList, (record.error.map Value.ofText).getD .null)]

theorem toJson_eq_object (record : BuildRecord) :
    record.toJson = .object (record.fields.map fun (name, value) => (escape name, value)) := rfl

theorem ofValues?_parts (record : BuildRecord) :
    ofValues? (.boolean record.success) (.ofText record.startedAt.write)
        (.ofText record.finishedAt.write) (.ofNat record.durationMs.toNat)
        (.ofNat record.files.toNat) ((record.error.map Value.ofText).getD .null)
      = some record := by
  simp [ofValues?, Value.boolean?, Value.optional?_getD Value.text?_ofText (by simp [Value.ofText])]

theorem ofJson?_toJson (record : BuildRecord) : ofJson? record.toJson = some record := by
  have distinct : (record.fields.map (·.1)).Nodup := by
    simp only [fields, List.map_cons, List.map_nil]
    decide
  have found := Value.fields?_escape (record.fields.map (·.1))
    (fun row isIn => List.mem_map_of_mem isIn) distinct
  rw [toJson_eq_object, ofJson?]
  refine Option.bind_eq_some_iff.2 ⟨_, found, ?_⟩
  refine Option.bind_eq_some_iff.2 ⟨_, rfl, ?_⟩
  refine Option.bind_eq_some_iff.2 ⟨_, rfl, ?_⟩
  refine Option.bind_eq_some_iff.2 ⟨_, rfl, ?_⟩
  refine Option.bind_eq_some_iff.2 ⟨_, rfl, ?_⟩
  refine Option.bind_eq_some_iff.2 ⟨_, rfl, ?_⟩
  exact record.ofValues?_parts

theorem wellFormed_toJson (record : BuildRecord) : WellFormed record.toJson := by
  refine Value.wellFormed_object record.fields fun row isRow => ?_
  simp only [fields, List.mem_cons, List.not_mem_nil, or_false] at isRow
  rcases isRow with rfl | rfl | rfl | rfl | rfl | rfl
  · exact .boolean _
  · exact wellFormed_ofText _
  · exact wellFormed_ofText _
  · exact wellFormed_ofNat _
  · exact wellFormed_ofNat _
  · exact Value.wellFormed_getD wellFormed_ofText _

end BuildRecord

namespace BuildState

/-- The members of a written state, under their names. -/
def fields (state : BuildState) : List (Text × Value) :=
  [("schema_version".toList, .ofText state.schemaVersion),
   ("build".toList, (state.build.map BuildRecord.toJson).getD .null)]

theorem toJson_eq_object (state : BuildState) :
    state.toJson = .object (state.fields.map fun (name, value) => (escape name, value)) := rfl

theorem ofJson?_toJson (state : BuildState) : ofJson? state.toJson = some state := by
  have distinct : (state.fields.map (·.1)).Nodup := by
    simp only [fields, List.map_cons, List.map_nil]
    decide
  have found := Value.fields?_escape (state.fields.map (·.1))
    (fun row isIn => List.mem_map_of_mem isIn) distinct
  rw [toJson_eq_object, ofJson?]
  refine Option.bind_eq_some_iff.2 ⟨_, found, ?_⟩
  refine Option.bind_eq_some_iff.2 ⟨_, rfl, ?_⟩
  refine Option.bind_eq_some_iff.2 ⟨_, Value.text?_ofText _, ?_⟩
  have notNull (record : BuildRecord) : record.toJson ≠ .null := by simp [BuildRecord.toJson]
  have build := Value.optional?_getD BuildRecord.ofJson?_toJson notNull state.build
  exact Option.bind_eq_some_iff.2 ⟨_, build, rfl⟩

theorem wellFormed_toJson (state : BuildState) : WellFormed state.toJson := by
  refine Value.wellFormed_object state.fields fun row isRow => ?_
  simp only [fields, List.mem_cons, List.not_mem_nil, or_false] at isRow
  rcases isRow with rfl | rfl
  · exact wellFormed_ofText _
  · exact Value.wellFormed_getD BuildRecord.wellFormed_toJson _

/-- Reading undoes writing. -/
@[simp] theorem read?_write (state : BuildState) : read? state.write = some state := by
  rw [read?, write, Json.read?_write state.wellFormed_toJson]
  exact state.ofJson?_toJson

end BuildState

end StaticSite
