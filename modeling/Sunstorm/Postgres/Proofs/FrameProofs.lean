import Sunstorm.Postgres.Proofs.DbProofs

/-!
# Proofs: transactions with different identifiers do not meet

A statement about one prepared transaction does what it would do if no other was ever prepared, and
leaves the others as they are.
-/

namespace Postgres

namespace Db

variable {γ δ φ : Type} [DecidableEq γ] {db db' : Db γ} {gid g : γ} {stmt : Stmt γ δ} {o : Fate φ}
  {r : Except φ Bool}

@[simp] theorem history_only : (db.only gid).history gid = db.history gid := if_pos rfl

@[simp] theorem txn_only : (db.only gid).txn = db.txn := rfl

@[simp] theorem prepared_only : (db.only gid).prepared gid = db.prepared gid := by
  unfold prepared
  rw [history_only]

theorem history_record_other {ev : GidEvent} (h : g ≠ gid) :
    (db.record gid ev).history g = db.history g := Function.update_of_ne h _ _

theorem record_only {ev : GidEvent} : (db.only gid).record gid ev = (db.record gid ev).only gid := by
  unfold record only
  congr 1
  funext g
  by_cases h : g = gid
  · subst h
    simp
  · simp [h]

/-- The effect of a statement is the same with and without the other transactions. -/
theorem effect_only (h : stmt.About gid) :
    (db.only gid).effect stmt = (db.effect stmt).map fun x => (x.1, x.2.only gid) := by
  cases stmt with
  | connect => rfl
  | begin =>
    by_cases haborted : db.txn = .aborted
    · simp [effect, haborted]
    · simp [effect, haborted]
      rfl
  | work data =>
    simp only [effect, txn_only]
    split <;> rfl
  | prepare g =>
    obtain rfl : g = gid := h
    simp only [effect, txn_only]
    cases db.txn with
    | opened worked =>
      simp only [record_only]
      rfl
    | _ => rfl
  | lookup g =>
    obtain rfl : g = gid := h
    simp only [effect, prepared_only]
    rfl
  | commitPrepared g =>
    obtain rfl : g = gid := h
    simp only [effect, prepared_only, record_only]
    split <;> rfl
  | rollbackPrepared g =>
    obtain rfl : g = gid := h
    simp only [effect, prepared_only, record_only]
    split <;> rfl

/-- A statement does the same with and without the other transactions. -/
theorem exec_only (h : stmt.About gid) :
    (db.only gid).exec stmt o = (db.exec stmt o).map fun x => (x.1, x.2.only gid) := by
  cases o with
  | done =>
    simp only [exec, effect_only h, Option.map_map]
    rfl
  | hidden e =>
    simp only [exec, effect_only h, Option.map_map]
    rfl
  | failed e txn => rfl

/-- What a statement makes of the prepared transactions: nothing, or one event of the one that it is
about. -/
theorem exec_history (hexec : db.exec stmt o = some (r, db')) :
    db'.history = db.history ∨
      ∃ gid ev, stmt.Records gid ev ∧ db'.history = (db.record gid ev).history := by
  have heffect : ∀ b db₁, db.effect stmt = some (b, db₁) → db₁.history = db.history ∨
      ∃ gid ev, stmt.Records gid ev ∧ db₁.history = (db.record gid ev).history := by
    intro b db₁ heq
    cases stmt with
    | prepare g =>
      unfold effect at heq
      cases htxn : db.txn with
      | opened worked =>
        rw [htxn] at heq
        obtain ⟨-, rfl⟩ := Prod.mk.inj (Option.some.inj heq)
        exact Or.inr ⟨g, .prepared worked, rfl, rfl⟩
      | _ =>
        rw [htxn] at heq
        obtain ⟨-, rfl⟩ := Prod.mk.inj (Option.some.inj heq)
        exact Or.inl rfl
    | commitPrepared g =>
      obtain ⟨-, heq⟩ := Option.ite_none_right_eq_some.mp heq
      obtain ⟨-, rfl⟩ := Prod.mk.inj (Option.some.inj heq)
      exact Or.inr ⟨g, .committed, rfl, rfl⟩
    | rollbackPrepared g =>
      obtain ⟨-, heq⟩ := Option.ite_none_right_eq_some.mp heq
      obtain ⟨-, rfl⟩ := Prod.mk.inj (Option.some.inj heq)
      exact Or.inr ⟨g, .rolledBack, rfl, rfl⟩
    | begin =>
      obtain ⟨-, heq⟩ := Option.ite_none_left_eq_some.mp heq
      obtain ⟨-, rfl⟩ := Prod.mk.inj (Option.some.inj heq)
      exact Or.inl rfl
    | work data =>
      unfold effect at heq
      cases htxn : db.txn with
      | aborted =>
        rw [htxn] at heq
        exact absurd heq (by simp)
      | _ =>
        rw [htxn] at heq
        obtain ⟨-, rfl⟩ := Prod.mk.inj (Option.some.inj heq)
        exact Or.inl rfl
    | _ =>
      obtain ⟨-, rfl⟩ := Prod.mk.inj (Option.some.inj heq)
      exact Or.inl rfl
  have hexecutes : Executes (fun _ _ => True) stmt db r db' := ⟨o, trivial, hexec⟩
  rcases executes_cases hexecutes with ⟨b, hb, -⟩ | ⟨e, txn, -, rfl⟩
  · exact heffect b db' hb
  · exact Or.inl rfl

omit [DecidableEq γ] in
theorem eq_of_records {gid' : γ} {ev : GidEvent} (h : stmt.About gid) (hev : stmt.Records gid' ev) :
    gid' = gid := by
  cases stmt with
  | prepare g =>
    obtain rfl : g = gid := h
    cases ev with
    | prepared worked => exact hev.symm
    | _ => exact hev.elim
  | commitPrepared g =>
    obtain rfl : g = gid := h
    cases ev with
    | committed => exact hev.symm
    | _ => exact hev.elim
  | rollbackPrepared g =>
    obtain rfl : g = gid := h
    cases ev with
    | rolledBack => exact hev.symm
    | _ => exact hev.elim
  | _ => exact hev.elim

/-- A statement leaves the transactions alone that it is not about. -/
theorem exec_other (h : stmt.About gid) (hg : g ≠ gid) (hexec : db.exec stmt o = some (r, db')) :
    db'.history g = db.history g := by
  rcases exec_history hexec with heq | ⟨gid', ev, hev, heq⟩
  · rw [heq]
  · rw [heq, eq_of_records h hev, history_record_other hg]

/-- What a statement makes of the transaction that it is about. -/
theorem exec_own (h : stmt.About gid) (hexec : db.exec stmt o = some (r, db')) :
    db'.history gid = db.history gid ∨
      ∃ ev, stmt.Records gid ev ∧ db'.history gid = db.history gid ++ [ev] := by
  rcases exec_history hexec with heq | ⟨gid', ev, hev, heq⟩
  · exact Or.inl (by rw [heq])
  · obtain rfl := eq_of_records h hev
    exact Or.inr ⟨ev, hev, by rw [heq, history_record]⟩

end Db

end Postgres
