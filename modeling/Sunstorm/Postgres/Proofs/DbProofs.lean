import Sunstorm.Postgres.Db

/-!
# Proofs: what a statement can do

One lemma for each statement, for whatever becomes of it.
-/

namespace Postgres

namespace Db

variable {γ δ φ : Type} {db db' : Db γ} {r : Except φ Bool} {gid : γ}
  {may : Db γ → Fate φ → Prop}

/-! ## The history of a transaction -/

theorem prepared_of_nil (h : db.history gid = []) : db.prepared gid = none := by
  unfold prepared
  rw [h]
  rfl

theorem prepared_of_prepared {l : List GidEvent} {worked : Bool}
    (h : db.history gid = l ++ [.prepared worked]) : db.prepared gid = some worked := by
  unfold prepared
  rw [h, List.getLast?_concat]

theorem prepared_of_closed {l : List GidEvent} {ev : GidEvent}
    (h : db.history gid = l ++ [ev]) (hev : ∀ worked, ev ≠ .prepared worked) :
    db.prepared gid = none := by
  unfold prepared
  rw [h, List.getLast?_concat]
  cases ev with
  | prepared worked => exact absurd rfl (hev worked)
  | committed => rfl
  | rolledBack => rfl

variable [DecidableEq γ]

@[simp] theorem history_record (ev : GidEvent) :
    (db.record gid ev).history gid = db.history gid ++ [ev] := Function.update_self _ _ _

/-! ## The statements -/

/-- A statement takes place, or it reports an error and only the connection has changed. -/
theorem executes_cases {stmt : Stmt γ δ} (h : Executes may stmt db r db') :
    (∃ b, db.effect stmt = some (b, db') ∧ ∀ b', r = .ok b' → b' = b) ∨
      (∃ e txn, r = .error e ∧ db' = { db with txn }) := by
  obtain ⟨o, -, ho⟩ := h
  cases o with
  | done =>
    obtain ⟨⟨b, db₁⟩, heffect, heq⟩ := Option.map_eq_some_iff.mp ho
    obtain ⟨rfl, rfl⟩ := Prod.mk.inj heq
    exact Or.inl ⟨b, heffect, fun b' hb => (Except.ok.inj hb).symm⟩
  | hidden e =>
    obtain ⟨⟨b, db₁⟩, heffect, heq⟩ := Option.map_eq_some_iff.mp ho
    obtain ⟨rfl, rfl⟩ := Prod.mk.inj heq
    exact Or.inl ⟨b, heffect, fun b' hb => absurd hb (by simp)⟩
  | failed e txn =>
    obtain ⟨rfl, rfl⟩ := Prod.mk.inj (Option.some.inj ho)
    exact Or.inr ⟨e, txn, rfl, rfl⟩

/-- A reliable statement takes place and succeeds. -/
theorem executes_reliable {stmt : Stmt γ δ} (h : Executes (Reliable gid) stmt db r db')
    (hprepared : db.prepared gid ≠ none) : ∃ b, r = .ok b ∧ db.effect stmt = some (b, db') := by
  obtain ⟨o, ho, hexec⟩ := h
  obtain rfl := ho.resolve_left hprepared
  obtain ⟨⟨b, db₁⟩, heffect, heq⟩ := Option.map_eq_some_iff.mp hexec
  obtain ⟨rfl, rfl⟩ := Prod.mk.inj heq
  exact ⟨b, rfl, heffect⟩

theorem executes_connect (h : Executes may (.connect : Stmt γ δ) db r db') :
    db'.history = db.history := by
  rcases executes_cases h with ⟨b, heffect, -⟩ | ⟨e, txn, -, rfl⟩
  · obtain ⟨-, rfl⟩ := Prod.mk.inj (Option.some.inj heffect)
    rfl
  · rfl

theorem executes_begin (h : Executes may (.begin : Stmt γ δ) db r db') :
    db'.history = db.history ∧ ∀ b, r = .ok b → db'.txn = .opened false := by
  rcases executes_cases h with ⟨b, heffect, -⟩ | ⟨e, txn, rfl, rfl⟩
  · simp only [effect] at heffect
    by_cases haborted : db.txn = .aborted
    · rw [if_pos haborted] at heffect
      exact absurd heffect (by simp)
    · rw [if_neg haborted] at heffect
      obtain ⟨-, rfl⟩ := Prod.mk.inj (Option.some.inj heffect)
      exact ⟨rfl, fun _ _ => rfl⟩
  · exact ⟨rfl, fun b hb => absurd hb (by simp)⟩

theorem executes_work {data : δ} (h : Executes may (.work data : Stmt γ δ) db r db') {worked : Bool}
    (hopen : db.txn = .opened worked) :
    db'.history = db.history ∧ ∀ b, r = .ok b → db'.txn = .opened true := by
  rcases executes_cases h with ⟨b, heffect, -⟩ | ⟨e, txn, rfl, rfl⟩
  · unfold effect at heffect
    rw [hopen] at heffect
    obtain ⟨-, rfl⟩ := Prod.mk.inj (Option.some.inj heffect)
    exact ⟨rfl, fun _ _ => rfl⟩
  · exact ⟨rfl, fun b hb => absurd hb (by simp)⟩

/-- Preparing an open transaction prepares it, unless an error is reported. -/
theorem executes_prepare (h : Executes may (.prepare gid : Stmt γ δ) db r db') :
    (db'.history gid = db.history gid ∨
      ∃ worked, db'.history gid = db.history gid ++ [.prepared worked]) ∧
    ∀ b worked, r = .ok b → db.txn = .opened worked →
      db'.history gid = db.history gid ++ [.prepared worked] := by
  rcases executes_cases h with ⟨b, heffect, -⟩ | ⟨e, txn, rfl, rfl⟩
  · unfold effect at heffect
    cases htxn : db.txn with
    | opened worked =>
      rw [htxn] at heffect
      obtain ⟨-, rfl⟩ := Prod.mk.inj (Option.some.inj heffect)
      refine ⟨Or.inr ⟨worked, history_record _⟩, fun b' worked' _ hopen => ?_⟩
      obtain rfl := Txn.opened.inj hopen
      exact history_record _
    | idle =>
      rw [htxn] at heffect
      obtain ⟨-, rfl⟩ := Prod.mk.inj (Option.some.inj heffect)
      exact ⟨Or.inl rfl, fun b' worked' _ hopen => absurd hopen (by simp)⟩
    | aborted =>
      rw [htxn] at heffect
      obtain ⟨-, rfl⟩ := Prod.mk.inj (Option.some.inj heffect)
      exact ⟨Or.inl rfl, fun b' worked' _ hopen => absurd hopen (by simp)⟩
  · exact ⟨Or.inl rfl, fun b worked hb => absurd hb (by simp)⟩

theorem executes_lookup (h : Executes may (.lookup gid : Stmt γ δ) db r db') :
    db'.history = db.history ∧ ∀ b, r = .ok b → b = (db.prepared gid).isSome := by
  rcases executes_cases h with ⟨b, heffect, hb⟩ | ⟨e, txn, rfl, rfl⟩
  · obtain ⟨rfl, rfl⟩ := Prod.mk.inj (Option.some.inj heffect)
    exact ⟨rfl, hb⟩
  · exact ⟨rfl, fun b hb => absurd hb (by simp)⟩

/-- A statement that ends a prepared transaction. -/
theorem executes_closing {stmt : Stmt γ δ} {ev : GidEvent}
    (hstmt : db.effect stmt =
      if (db.prepared gid).isSome then some (false, db.record gid ev) else none)
    (h : Executes may stmt db r db') {b : Bool} (hr : r = .ok b) :
    db'.history gid = db.history gid ++ [ev] := by
  rcases executes_cases h with ⟨b', heffect, -⟩ | ⟨e, txn, rfl, rfl⟩
  · rw [hstmt] at heffect
    by_cases hprepared : (db.prepared gid).isSome = true
    · rw [if_pos hprepared] at heffect
      obtain ⟨-, rfl⟩ := Prod.mk.inj (Option.some.inj heffect)
      exact history_record _
    · rw [if_neg hprepared] at heffect
      exact absurd heffect (by simp)
  · exact absurd hr (by simp)

theorem executes_commitPrepared (h : Executes may (.commitPrepared gid : Stmt γ δ) db r db') {b : Bool}
    (hr : r = .ok b) : db'.history gid = db.history gid ++ [.committed] := executes_closing rfl h hr

theorem executes_rollbackPrepared (h : Executes may (.rollbackPrepared gid : Stmt γ δ) db r db')
    {b : Bool} (hr : r = .ok b) : db'.history gid = db.history gid ++ [.rolledBack] :=
  executes_closing rfl h hr

end Db

end Postgres
