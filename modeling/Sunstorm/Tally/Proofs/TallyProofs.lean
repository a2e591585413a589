import Sunstorm.Tally.Tally
import Mathlib.Data.List.Induction
import Mathlib.Data.List.Perm.Basic
import Mathlib.Data.List.TakeWhile

/-!
# Proofs: the ballot vote by vote

`decision_concat` says what one more vote changes, so that the ballot can be kept up to date by
`count`. A ballot in which no member votes both ways does not depend on the order of the votes.
-/

namespace Tally

variable {ι ρ : Type} {P : Finset ι} {vs : List (ι × Option ρ)}

/-! ## Votes -/

theorem mem_yesFrom {p : ι} : p ∈ yesFrom vs ↔ (p, none) ∈ vs := by
  unfold yesFrom
  rw [List.mem_filterMap]
  constructor
  · rintro ⟨⟨q, o⟩, hv, h⟩
    cases o with
    | none =>
      have hq : q = p := by simpa using h
      exact hq ▸ hv
    | some r => exact absurd h (by simp)
  · exact fun h => ⟨(p, none), h, by simp⟩

section

variable [DecidableEq ι]

@[simp] theorem isNo_yes (p : ι) : isNo P (p, (none : Option ρ)) = false := by simp [isNo]

@[simp] theorem isNo_no (p : ι) (r : ρ) : isNo P (p, some r) = decide (p ∈ P) := by simp [isNo]

theorem untilNo_eq_self (h : ∀ v ∈ vs, isNo P v = false) : untilNo P vs = vs := by
  unfold untilNo
  rw [List.takeWhile_eq_self_iff]
  intro v hv
  simp [h v hv]

theorem mem_of_mem_untilNo {v : ι × Option ρ} (h : v ∈ untilNo P vs) : v ∈ vs :=
  (List.takeWhile_prefix _).subset h

/-- A no of a member closes the votes that count. -/
theorem untilNo_concat (v : ι × Option ρ) :
    untilNo P (vs ++ [v]) =
      if (∀ u ∈ vs, isNo P u = false) ∧ isNo P v = false then vs ++ [v] else untilNo P vs := by
  unfold untilNo
  by_cases hvs : ∀ u ∈ vs, isNo P u = false
  · rw [List.takeWhile_append_of_pos (fun u hu => by simp [hvs u hu])]
    cases hv : isNo P v with
    | true =>
      have : List.takeWhile (fun v => !isNo P v) vs = vs := untilNo_eq_self hvs
      simp [hv, this]
    | false =>
      rw [if_pos ⟨hvs, rfl⟩]
      simp [hv]
  · rw [if_neg (fun h => hvs h.1), List.takeWhile_append]
    have hne : ¬ (vs.takeWhile fun v => !isNo P v).length = vs.length := by
      intro hlen
      apply hvs
      intro u hu
      have heq := (List.takeWhile_prefix (l := vs) (fun v => !isNo P v)).eq_of_length hlen
      have := List.takeWhile_eq_self_iff.mp heq u hu
      simpa using this
    rw [if_neg hne]

/-- The votes before the first no are the votes unless a member has voted no. -/
theorem decision_eq_waiting :
    decision P vs = .waiting ↔ (∀ v ∈ vs, isNo P v = false) ∧ (P.Nonempty → voted P vs ≠ P) := by
  have hvoted : voted P vs = P ↔ ∀ p ∈ P, p ∈ yesFrom (untilNo P vs) := Finset.filter_eq_self
  unfold decision
  by_cases hall : P.Nonempty ∧ ∀ p ∈ P, p ∈ yesFrom (untilNo P vs)
  · rw [if_pos hall]
    constructor
    · intro h; exact absurd h (by simp)
    · rintro ⟨-, h⟩; exact absurd (hvoted.mpr hall.2) (h hall.1)
  · rw [if_neg hall]
    have hne : P.Nonempty → voted P vs ≠ P := fun hP h => hall ⟨hP, hvoted.mp h⟩
    cases hf : vs.find? (isNo P) with
    | none =>
      rw [List.find?_eq_none] at hf
      exact ⟨fun _ => ⟨fun v hv => by simpa using hf v hv, hne⟩, fun _ => rfl⟩
    | some v =>
      have hv := List.find?_some hf
      obtain ⟨p, o⟩ := v
      cases o with
      | none => exact absurd hv (by simp)
      | some r =>
        refine ⟨fun h => absurd h (by simp), fun h => ?_⟩
        have := h.1 _ (List.mem_of_find?_eq_some hf)
        rw [hv] at this
        exact absurd this (by simp)

/-- A carried ballot: every member has voted yes. -/
theorem yes_of_commit (h : decision P vs = .commit) : P.Nonempty ∧ ∀ p ∈ P, (p, none) ∈ vs := by
  unfold decision at h
  split_ifs at h with hall
  · exact ⟨hall.1, fun p hp => mem_of_mem_untilNo (mem_yesFrom.mp (hall.2 p hp))⟩
  · split at h <;> exact absurd h (by simp)

/-- A lost ballot: its reason is the one of a no of a member. -/
theorem no_of_rollback {p : ι} {r : ρ} (h : decision P vs = .rollback p r) :
    p ∈ P ∧ (p, some r) ∈ vs := by
  unfold decision at h
  split_ifs at h with hall
  split at h
  · rename_i p' r' hf
    obtain ⟨rfl, rfl⟩ := Decision.rollback.inj h
    refine ⟨?_, List.mem_of_find?_eq_some hf⟩
    simpa using List.find?_some hf
  · exact absurd h (by simp)

/-! ## One more vote -/

theorem voted_eq_self : voted P vs = P ↔ ∀ p ∈ P, p ∈ yesFrom (untilNo P vs) :=
  Finset.filter_eq_self

theorem decision_eq_commit :
    decision P vs = .commit ↔ P.Nonempty ∧ ∀ p ∈ P, p ∈ yesFrom (untilNo P vs) := by
  unfold decision
  by_cases hall : P.Nonempty ∧ ∀ p ∈ P, p ∈ yesFrom (untilNo P vs)
  · rw [if_pos hall]
    exact ⟨fun _ => hall, fun _ => rfl⟩
  · rw [if_neg hall]
    refine ⟨fun h => ?_, fun h => absurd h hall⟩
    split at h <;> exact absurd h (by simp)

/-- A yes that comes before any no. -/
theorem voted_concat_yes (hno : ∀ v ∈ vs, isNo P v = false) (p : ι) :
    voted P (vs ++ [(p, none)]) = if p ∈ P then insert p (voted P vs) else voted P vs := by
  have hno' : ∀ v ∈ vs ++ [(p, none)], isNo P v = false := by
    intro v hv
    rcases List.mem_append.mp hv with hv | hv
    · exact hno v hv
    · rw [List.mem_singleton.mp hv, isNo_yes]
  unfold voted
  rw [untilNo_eq_self hno', untilNo_eq_self hno]
  ext q
  have hq : q ∈ yesFrom (vs ++ [(p, none)]) ↔ q ∈ yesFrom vs ∨ q = p := by
    rw [mem_yesFrom, mem_yesFrom, List.mem_append, List.mem_singleton]
    simp
  by_cases hp : p ∈ P
  · rw [if_pos hp, Finset.mem_insert, Finset.mem_filter, Finset.mem_filter, hq]
    constructor
    · rintro ⟨hqP, h | h⟩
      · exact Or.inr ⟨hqP, h⟩
      · exact Or.inl h
    · rintro (h | ⟨hqP, h⟩)
      · exact ⟨h ▸ hp, Or.inr h⟩
      · exact ⟨hqP, Or.inl h⟩
  · rw [if_neg hp, Finset.mem_filter, Finset.mem_filter, hq]
    constructor
    · rintro ⟨hqP, h | h⟩
      · exact ⟨hqP, h⟩
      · exact absurd (h ▸ hqP) hp
    · rintro ⟨hqP, h⟩
      exact ⟨hqP, Or.inl h⟩

/-- A yes while the ballot is open. -/
theorem count_yes (hwait : decision P vs = .waiting) (p : ι) :
    (decision P (vs ++ [(p, none)]), voted P (vs ++ [(p, none)])) =
      count P (p, none) (.waiting, voted P vs) := by
  obtain ⟨hno, hne⟩ := decision_eq_waiting.mp hwait
  have hno' : ∀ v ∈ vs ++ [(p, none)], isNo P v = false := by
    intro v hv
    rcases List.mem_append.mp hv with hv | hv
    · exact hno v hv
    · rw [List.mem_singleton.mp hv, isNo_yes]
  have hvoted := voted_concat_yes hno p
  by_cases hp : p ∈ P
  · rw [if_pos hp] at hvoted
    by_cases hfull : insert p (voted P vs) = P
    · have hdec : decision P (vs ++ [(p, none)]) = .commit := by
        refine decision_eq_commit.mpr ⟨⟨p, hp⟩, voted_eq_self.mp ?_⟩
        rw [hvoted, hfull]
      rw [hdec, hvoted]
      simp [count, hp, hfull]
    · have hdec : decision P (vs ++ [(p, none)]) = .waiting :=
        decision_eq_waiting.mpr ⟨hno', fun _ => by rw [hvoted]; exact hfull⟩
      rw [hdec, hvoted]
      simp [count, hp, hfull]
  · rw [if_neg hp] at hvoted
    have hdec : decision P (vs ++ [(p, none)]) = .waiting :=
      decision_eq_waiting.mpr ⟨hno', by rw [hvoted]; exact hne⟩
    rw [hdec, hvoted]
    simp [count, hp]

/-- A no while the ballot is open. -/
theorem count_no (hwait : decision P vs = .waiting) (p : ι) (r : ρ) :
    (decision P (vs ++ [(p, some r)]), voted P (vs ++ [(p, some r)])) =
      count P (p, some r) (.waiting, voted P vs) := by
  obtain ⟨hno, hne⟩ := decision_eq_waiting.mp hwait
  have hself := untilNo_eq_self hno
  by_cases hp : p ∈ P
  · have huntil : untilNo P (vs ++ [(p, some r)]) = vs := by
      rw [untilNo_concat, if_neg (by simp [hp]), hself]
    have hnall : ¬ (P.Nonempty ∧ ∀ q ∈ P, q ∈ yesFrom vs) := by
      rintro ⟨hP, hall⟩
      exact hne hP (voted_eq_self.mpr (by rwa [hself]))
    have hfind : (vs ++ [(p, some r)]).find? (isNo P) = some (p, some r) := by
      rw [List.find?_append, List.find?_eq_none.mpr (fun v hv => by simp [hno v hv])]
      simp [hp]
    simp only [decision, voted, huntil, if_neg hnall, hfind, count, if_pos hp, hself]
  · have hno' : ∀ v ∈ vs ++ [(p, some r)], isNo P v = false := by
      intro v hv
      rcases List.mem_append.mp hv with hv | hv
      · exact hno v hv
      · rw [List.mem_singleton.mp hv]
        simp [hp]
    have hyes : yesFrom (vs ++ [(p, some r)]) = yesFrom vs := by simp [yesFrom]
    have hvoted : voted P (vs ++ [(p, some r)]) = voted P vs := by
      unfold voted
      rw [untilNo_eq_self hno', hself, hyes]
    have hdec : decision P (vs ++ [(p, some r)]) = .waiting :=
      decision_eq_waiting.mpr ⟨hno', by rw [hvoted]; exact hne⟩
    rw [hdec, hvoted]
    simp [count, hp]

/-- Nothing changes once the ballot is decided. -/
theorem count_decided (hd : decision P vs ≠ .waiting) (v : ι × Option ρ) :
    decision P (vs ++ [v]) = decision P vs ∧ voted P (vs ++ [v]) = voted P vs := by
  by_cases hall : P.Nonempty ∧ ∀ q ∈ P, q ∈ yesFrom (untilNo P vs)
  · have hmono : ∀ q ∈ P, q ∈ yesFrom (untilNo P (vs ++ [v])) := by
      intro q hq
      have hq' := mem_yesFrom.mp (hall.2 q hq)
      apply mem_yesFrom.mpr
      rw [untilNo_concat]
      split_ifs
      · exact List.mem_append_left _ (mem_of_mem_untilNo hq')
      · exact hq'
    rw [decision_eq_commit.mpr hall, decision_eq_commit.mpr ⟨hall.1, hmono⟩,
      voted_eq_self.mpr hall.2, voted_eq_self.mpr hmono]
    exact ⟨rfl, rfl⟩
  · have hno : ¬ ∀ v ∈ vs, isNo P v = false := by
      intro hno
      apply hd
      refine decision_eq_waiting.mpr ⟨hno, fun hP h => hall ⟨hP, ?_⟩⟩
      exact voted_eq_self.mp h
    have huntil : untilNo P (vs ++ [v]) = untilNo P vs := by
      rw [untilNo_concat, if_neg (fun h => hno h.1)]
    have hfind : (vs ++ [v]).find? (isNo P) = vs.find? (isNo P) := by
      rw [List.find?_append]
      cases hf : vs.find? (isNo P) with
      | none =>
        rw [List.find?_eq_none] at hf
        exact absurd (fun v hv => by simpa using hf v hv) hno
      | some v => rfl
    constructor
    · simp only [decision, huntil, hfind]
    · simp only [voted, huntil]

theorem count_of_ne_waiting {d : Decision ι ρ} (hd : d ≠ .waiting) (v : ι × Option ρ)
    (ys : Finset ι) : count P v (d, ys) = (d, ys) := by
  cases d with
  | waiting => exact absurd rfl hd
  | commit => rfl
  | rollback p r => rfl

/-- **One more vote.** Keeping the decision and the yes votes up to date vote by vote gives the
decision of the ballot. -/
theorem decision_concat (P : Finset ι) (vs : List (ι × Option ρ)) (v : ι × Option ρ) :
    (decision P (vs ++ [v]), voted P (vs ++ [v])) = count P v (decision P vs, voted P vs) := by
  by_cases hwait : decision P vs = .waiting
  · obtain ⟨p, o⟩ := v
    rw [hwait]
    cases o with
    | some r => exact count_no hwait p r
    | none => exact count_yes hwait p
  · obtain ⟨hdec, hvoted⟩ := count_decided hwait v
    rw [hdec, hvoted, count_of_ne_waiting hwait]

/-- A decision that is taken stands. -/
theorem ballot_stable (h : decision P vs ≠ .waiting) (ws : List (ι × Option ρ)) :
    decision P (vs ++ ws) = decision P vs ∧ voted P (vs ++ ws) = voted P vs := by
  induction ws using List.reverseRecOn with
  | nil => simp
  | append_singleton ws v ih =>
    obtain ⟨hdec, hvoted⟩ := count_decided (by rw [ih.1]; exact h) v
    rw [← List.append_assoc, hdec, hvoted]
    exact ih

theorem decision_stable (h : decision P vs ≠ .waiting) (ws : List (ι × Option ρ)) :
    decision P (vs ++ ws) = decision P vs := (ballot_stable h ws).1

/-- A no of a member while the ballot is open decides it. -/
theorem decision_no {p : ι} (hwait : decision P vs = .waiting) (hp : p ∈ P) (r : ρ)
    (ws : List (ι × Option ρ)) : decision P (vs ++ (p, some r) :: ws) = .rollback p r := by
  have hdec : decision P (vs ++ [(p, some r)]) = .rollback p r := by
    have hcount := congrArg Prod.fst (count_no hwait p r)
    simpa [count, hp] using hcount
  rw [← hdec, List.append_cons]
  exact decision_stable (by rw [hdec]; simp) ws

/-- A ballot in which every member has voted is decided. -/
theorem decision_of_all_voted (hP : P.Nonempty) (h : ∀ p ∈ P, ∃ o, (p, o) ∈ vs) :
    decision P vs ≠ .waiting := by
  intro hwait
  obtain ⟨hno, hmissing⟩ := decision_eq_waiting.mp hwait
  apply hmissing hP
  refine Finset.filter_eq_self.mpr fun p hp => ?_
  rw [untilNo_eq_self hno]
  obtain ⟨o, ho⟩ := h p hp
  have hyes := hno _ ho
  cases o with
  | none => exact mem_yesFrom.mpr ho
  | some r => exact absurd hyes (by simp [hp])

/-! ## Votes after the ballot is carried -/

theorem not_overrun_nil : ¬ Overrun P vs [] := by
  rintro ⟨j, hj, -⟩
  exact absurd hj (Nat.not_lt_zero j)

theorem overrun_cons (w : ι × Option ρ) (ws : List (ι × Option ρ)) :
    Overrun P vs (w :: ws) ↔ decision P vs = .commit ∨ Overrun P (vs ++ [w]) ws := by
  constructor
  · rintro ⟨j, hj, h⟩
    cases j with
    | zero => exact Or.inl (by simpa using h)
    | succ j =>
      refine Or.inr ⟨j, by simpa using hj, ?_⟩
      rw [List.append_assoc]
      exact h
  · rintro (h | ⟨j, hj, h⟩)
    · exact ⟨0, by simp, by simpa using h⟩
    · refine ⟨j + 1, by simpa using hj, ?_⟩
      rw [List.append_assoc] at h
      exact h

/-- A ballot that is overrun is carried. -/
theorem Overrun.commit {ws : List (ι × Option ρ)} (h : Overrun P vs ws) :
    decision P (vs ++ ws) = .commit := by
  obtain ⟨j, -, hd⟩ := h
  have hstable := decision_stable (by rw [hd]; simp) (ws.drop j)
  rw [List.append_assoc, List.take_append_drop] at hstable
  rw [hstable, hd]

/-! ## The order of the votes -/

/-- When no member votes both ways, the first no decides whether the ballot is lost, and nothing
but a missing yes keeps it from being carried. -/
theorem decision_of_consistent (hc : Consistent P vs) :
    ((∃ p r, decision P vs = .rollback p r) ↔ ∃ p ∈ P, ∃ r, (p, some r) ∈ vs) ∧
    (decision P vs = .commit ↔ P.Nonempty ∧ ∀ p ∈ P, (p, none) ∈ vs) := by
  constructor
  · constructor
    · rintro ⟨p, r, h⟩
      obtain ⟨hp, hv⟩ := no_of_rollback h
      exact ⟨p, hp, r, hv⟩
    · rintro ⟨p, hp, r, hv⟩
      cases hd : decision P vs with
      | waiting =>
        have := (decision_eq_waiting.mp hd).1 _ hv
        simp [hp] at this
      | commit => exact absurd hv (hc p hp ((yes_of_commit hd).2 p hp) r)
      | rollback q s => exact ⟨q, s, rfl⟩
  · constructor
    · exact yes_of_commit
    · rintro ⟨hP, hall⟩
      cases hd : decision P vs with
      | waiting =>
        obtain ⟨hno, hne⟩ := decision_eq_waiting.mp hd
        refine absurd (Finset.filter_eq_self.mpr fun p hp => ?_) (hne hP)
        rw [untilNo_eq_self hno]
        exact mem_yesFrom.mpr (hall p hp)
      | commit => rfl
      | rollback p r =>
        obtain ⟨hp, hv⟩ := no_of_rollback hd
        exact absurd hv (hc p hp (hall p hp) r)

end

/-- Senders that vote once are consistent. -/
theorem consistent_of_nodup (h : (vs.map Prod.fst).Nodup) : Consistent P vs := by
  intro p _ hyes r hno
  have := List.inj_on_of_nodup_map h hyes hno rfl
  exact absurd (Prod.mk.inj this).2 (by simp)

/-- Votes of members that vote once do not go on after the ballot is carried. -/
theorem not_overrun_of_nodup [DecidableEq ι] {ws : List (ι × Option ρ)}
    (h : ((vs ++ ws).map Prod.fst).Nodup) (hmem : ∀ w ∈ ws, w.1 ∈ P) : ¬ Overrun P vs ws := by
  rintro ⟨j, hj, hd⟩
  have hyes := (yes_of_commit hd).2 _ (hmem _ (List.getElem_mem hj))
  -- the member votes among the first ones and once more at position `j`
  have hsplit : vs ++ ws = (vs ++ ws.take j) ++ ws[j] :: ws.drop (j + 1) := by
    rw [List.append_assoc, List.getElem_cons_drop, List.take_append_drop]
  rw [hsplit, List.map_append, List.nodup_append] at h
  exact h.2.2 _ (List.mem_map.mpr ⟨_, hyes, rfl⟩) _ (List.mem_map.mpr ⟨_, List.mem_cons_self, rfl⟩)
    rfl

theorem Consistent.mono (hc : Consistent P vs) {ws : List (ι × Option ρ)}
    (h : ∀ p ∈ P, ∀ o, (p, o) ∈ ws → (p, o) ∈ vs) : Consistent P ws := by
  intro p hp hyes r hno
  exact hc p hp (h p hp _ hyes) r (h p hp _ hno)

/-- Two ballots decide the same, up to the reported no, when the same members cast the same votes
and no member votes both ways. The order and the number of the votes do not matter. -/
theorem decision_congr [DecidableEq ι] (hc : Consistent P vs) (ws : List (ι × Option ρ))
    (h : ∀ p ∈ P, ∀ o, (p, o) ∈ ws ↔ (p, o) ∈ vs) :
    (decision P ws = .commit ↔ decision P vs = .commit) ∧
    ((∃ p r, decision P ws = .rollback p r) ↔ ∃ p r, decision P vs = .rollback p r) := by
  have hc' : Consistent P ws := hc.mono fun p hp o hv => (h p hp o).mp hv
  obtain ⟨hno, hyes⟩ := decision_of_consistent hc
  obtain ⟨hno', hyes'⟩ := decision_of_consistent hc'
  rw [hno, hyes, hno', hyes']
  constructor
  · constructor
    · exact fun ⟨hP, hall⟩ => ⟨hP, fun p hp => (h p hp _).mp (hall p hp)⟩
    · exact fun ⟨hP, hall⟩ => ⟨hP, fun p hp => (h p hp _).mpr (hall p hp)⟩
  · constructor
    · exact fun ⟨p, hp, r, hv⟩ => ⟨p, hp, r, (h p hp _).mp hv⟩
    · exact fun ⟨p, hp, r, hv⟩ => ⟨p, hp, r, (h p hp _).mpr hv⟩

end Tally
