/-!
# Results that may be errors

How a chain of steps that may fail comes to its result.
-/

namespace Except

variable {ε ε' α β γ : Type}

@[simp] theorem ok_bind (a : α) (next : α → Except ε β) : (Except.ok a >>= next) = next a := rfl

@[simp] theorem error_bind (error : ε) (next : α → Except ε β) :
    (Except.error error >>= next) = .error error := rfl

@[simp] theorem mapError_ok (a : α) (wrap : ε → ε') : (Except.ok a).mapError wrap = .ok a := rfl

@[simp] theorem mapError_error (error : ε) (wrap : ε → ε') :
    (Except.error error : Except ε α).mapError wrap = .error (wrap error) := rfl

theorem bind_eq_ok {first : Except ε α} {next : α → Except ε β} {b : β} :
    (first >>= next) = .ok b ↔ ∃ a, first = .ok a ∧ next a = .ok b := by
  cases first <;> simp

theorem bind_eq_error {first : Except ε α} {next : α → Except ε β} {error : ε} :
    (first >>= next) = .error error ↔
      first = .error error ∨ ∃ a, first = .ok a ∧ next a = .error error := by
  cases first <;> simp

theorem check_bind_eq_ok {check : Except ε Unit} {next : Unit → Except ε β} {b : β} :
    (check >>= next) = .ok b ↔ check = .ok () ∧ next () = .ok b := by
  cases check <;> simp

theorem mapError_eq_ok {result : Except ε α} {wrap : ε → ε'} {a : α} :
    result.mapError wrap = .ok a ↔ result = .ok a := by
  cases result <;> simp

theorem mapError_eq_error {result : Except ε α} {wrap : ε → ε'} {error : ε'} :
    result.mapError wrap = .error error ↔ ∃ cause, result = .error cause ∧ wrap cause = error := by
  cases result <;> simp

theorem map_bind (change : α → β) (first : Except ε α) (next : β → Except ε γ) :
    (first.map change >>= next) = first >>= fun a => next (change a) := by
  cases first <;> rfl

/-- What follows a step only has to be the same for what the step can give. -/
theorem bind_congr {first : Except ε α} {next next' : α → Except ε β}
    (same : ∀ a, first = .ok a → next a = next' a) : (first >>= next) = first >>= next' := by
  cases first with
  | error error => rfl
  | ok a => exact same a rfl

theorem forM_eq_ok {check : α → Except ε Unit} {keys : List α} :
    keys.forM check = .ok () ↔ ∀ key ∈ keys, check key = .ok () := by
  induction keys with
  | nil => exact ⟨fun _ _ isIn => absurd isIn List.not_mem_nil, fun _ => rfl⟩
  | cons key rest ih => rw [List.forM, check_bind_eq_ok, ih, List.forall_mem_cons]

/-- Keyed results of a step that comes to one for every key. -/
theorem mapM_keyed_eq_ok {step : α → Except ε β} {keys : List α} {rows : List (α × β)}
    (mapped : (keys.mapM fun key => do .ok (key, ← step key)) = .ok rows) :
    rows.map (·.1) = keys ∧ ∀ row ∈ rows, step row.1 = .ok row.2 := by
  induction keys generalizing rows with
  | nil =>
    cases mapped
    exact ⟨rfl, nofun⟩
  | cons key rest ih =>
    rw [List.mapM_cons] at mapped
    obtain ⟨first, isFirst, others⟩ := bind_eq_ok.1 mapped
    obtain ⟨value, stepped, sameFirst⟩ := bind_eq_ok.1 isFirst
    obtain ⟨later, laterMapped, sameRows⟩ := bind_eq_ok.1 others
    cases sameFirst
    cases sameRows
    obtain ⟨sameKeys, steps⟩ := ih laterMapped
    refine ⟨by rw [List.map_cons, sameKeys], ?_⟩
    intro row isRow
    rcases List.mem_cons.1 isRow with rfl | isLater
    · exact stepped
    · exact steps row isLater

/-- A step that comes to the same for every key comes to the same for all of them. -/
theorem mapM_of_steps {step step' : α → Except ε β} {keys : List α} {results : List β}
    (mapped : keys.mapM step = .ok results)
    (steps : ∀ key ∈ keys, ∀ b, step key = .ok b → step' key = .ok b) :
    keys.mapM step' = .ok results := by
  induction keys generalizing results with
  | nil => exact mapped
  | cons key rest ih =>
    rw [List.mapM_cons] at mapped ⊢
    obtain ⟨first, stepped, mapped⟩ := bind_eq_ok.1 mapped
    obtain ⟨later, laterMapped, same⟩ := bind_eq_ok.1 mapped
    rw [steps key List.mem_cons_self first stepped, ok_bind,
      ih laterMapped fun other isIn => steps other (List.mem_cons_of_mem _ isIn)]
    exact same

/-- A step that is checked first comes to a result for all keys if they all pass. -/
theorem mapM_check_eq_ok {check : α → Except ε Unit} {step : α → Except ε β} {keys : List α}
    {results : List β} : (keys.mapM fun key => do check key; step key) = .ok results ↔
      (∀ key ∈ keys, check key = .ok ()) ∧ keys.mapM step = .ok results := by
  induction keys generalizing results with
  | nil => simp
  | cons key rest ih =>
    simp only [List.mapM_cons, List.forall_mem_cons, bind_eq_ok, ih]
    constructor
    · rintro ⟨first, ⟨_, passed, stepped⟩, later, ⟨others, mapped⟩, same⟩
      exact ⟨⟨passed, others⟩, first, stepped, later, mapped, same⟩
    · rintro ⟨⟨passed, others⟩, first, stepped, later, mapped, same⟩
      exact ⟨first, ⟨(), passed, stepped⟩, later, ⟨others, mapped⟩, same⟩

theorem bind_assoc (first : Except ε α) (next : α → Except ε β) (last : β → Except ε γ) :
    (first >>= next) >>= last = first >>= fun a => next a >>= last := by
  cases first <;> rfl

end Except
