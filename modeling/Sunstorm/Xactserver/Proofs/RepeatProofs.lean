import Sunstorm.Xactserver.Proofs.FormatProofs

/-!
# Proofs: decoding the rest of a read/write set again

`decode_rest` takes the relations section off the remaining bytes before it knows whether the
section decodes, and remembers only a success. So a call after a failed one works on other bytes.
-/

namespace Sunstorm

open Codec

namespace RWSet

/-- The set after `k` calls to `decode_rest`. -/
def afterCalls (self : RWSet) : Nat → RWSet
  | 0 => self
  | k + 1 => (afterCalls self k).decodeRest.2

/-- However often `decode_rest` is called: no call panics, a call that fails leaves the set as it
was, and all calls give the same result and the same relations. -/
def Repeatable (rwset : RWSet) : Prop :=
  ∀ k, (∀ e, (rwset.afterCalls k).decodeRest.1 = .error e →
      e.isPanic = false ∧ (rwset.afterCalls k).decodeRest.2 = rwset.afterCalls k) ∧
    (rwset.afterCalls k).decodeRest.1 = rwset.decodeRest.1 ∧
    (rwset.afterCalls k).decodeRest.2.relations = rwset.decodeRest.2.relations

/-- The relations section is there, and it is made of as many relations as the set says. -/
def SectionFits (rwset : RWSet) : Prop :=
  rwset.relationsLen ≤ rwset.remainder.length ∧
    ∃ relations, Words RelationWord relations (rwset.remainder.take rwset.relationsLen) ∧
      rwset.nRelations = UInt32.ofNat relations.length

/-- A set that a call leaves as it is can be decoded again. -/
theorem repeatable_of_fixed {rwset : RWSet} (hfixed : rwset.decodeRest.2 = rwset)
    (hpanic : ∀ e, rwset.decodeRest.1 = .error e → e.isPanic = false) : rwset.Repeatable := by
  have hafter : ∀ k, rwset.afterCalls k = rwset := by
    intro k
    induction k with
    | zero => rfl
    | succ k ih => rw [afterCalls, ih, hfixed]
  intro k
  rw [hafter k]
  exact ⟨fun e he => ⟨hpanic e he, hfixed⟩, rfl, rfl⟩

theorem decodeRest_decoded {rwset : RWSet} (h : rwset.decodedAll = true) :
    rwset.decodeRest = (.ok (), rwset) := by
  unfold decodeRest
  rw [if_pos h]

/-- After a success every call succeeds and changes nothing. -/
theorem repeatable_of_ok {rwset rwset' : RWSet} (h : rwset.decodeRest = (.ok (), rwset'))
    (hall : rwset'.decodedAll = true) : rwset.Repeatable := by
  have hafter : ∀ k, rwset.afterCalls (k + 1) = rwset' := by
    intro k
    induction k with
    | zero => rw [afterCalls, afterCalls, h]
    | succ k ih => rw [afterCalls, ih, decodeRest_decoded hall]
  intro k
  cases k with
  | zero =>
    refine ⟨fun e he => ?_, rfl, rfl⟩
    rw [afterCalls, h] at he
    exact absurd he (by simp)
  | succ k =>
    rw [hafter k, decodeRest_decoded hall, h]
    exact ⟨fun e he => absurd he (by simp), rfl, rfl⟩

end RWSet

/-- **When `decode_rest` can be repeated**: exactly when the relations section is empty, or is there
in full and made of the announced number of relations. -/
theorem decodeRest_repeatable_iff (buf : Bytes) (rwset : RWSet) (h : RWSet.decode buf = .ok rwset) :
    rwset.Repeatable ↔ rwset.relationsLen = 0 ∨ rwset.SectionFits := by
  obtain ⟨dbid, regionSet, len, n, rest, -, -, hset⟩ := decode_eq_ok.mp h
  have hfresh : rwset.decodedAll = false := by rw [hset]; rfl
  constructor
  · intro hrep
    rcases decodeRest_cases rwset hfresh with
      ⟨-, t, hrun⟩ | ⟨hle, ⟨e, -, hrun⟩ | ⟨relations, hw, hn, -⟩⟩
    · -- the first call panics
      obtain ⟨hpanic, -⟩ := (hrep 0).1 (.panic t) (by rw [RWSet.afterCalls, hrun])
      exact absurd hpanic (by simp [Failure.isPanic])
    · -- the first call fails, and leaves fewer bytes unless the section is empty
      obtain ⟨-, hsame⟩ := (hrep 0).1 e (by rw [RWSet.afterCalls, hrun])
      rw [RWSet.afterCalls, hrun] at hsame
      have hrest : rwset.remainder.drop rwset.relationsLen = rwset.remainder :=
        congrArg RWSet.remainder hsame
      have hlen := congrArg List.length hrest
      rw [List.length_drop] at hlen
      exact Or.inl (by omega)
    · exact Or.inr ⟨hle, relations, hw, hn⟩
  · intro hcond
    rcases decodeRest_cases rwset hfresh with
      ⟨hlt, -⟩ | ⟨hle, ⟨e, he, hrun⟩ | ⟨relations, -, -, hrun⟩⟩
    · rcases hcond with hzero | ⟨hle, -⟩ <;> omega
    · rcases hcond with hzero | ⟨-, relations, hw, hn⟩
      · refine RWSet.repeatable_of_fixed ?_ ?_
        · have hdrop : rwset.remainder.drop rwset.relationsLen = rwset.remainder := by
            rw [hzero, List.drop_zero]
          rw [hrun, hdrop]
        · rintro e' he'
          rw [hrun] at he'
          rw [← Except.error.inj he']
          exact he
      · have hok := decodeRest_of_words hfresh hle hw hn
        rw [hrun] at hok
        exact absurd (Prod.mk.inj hok).1 (by simp)
    · exact RWSet.repeatable_of_ok hrun rfl

/-- A table with one tuple, and an index with one page. -/
def sampleRelations : List Relation :=
  [.table 5 1 2 true 1 [⟨3, 4⟩], .index 6 1 2 1 [⟨7⟩]]

/-- The relations section of the two. -/
def sampleSection : Bytes :=
  (sampleRelations.map fun r => r.encodeWith r.scan).flatten

/-- The section is decoded every time, with a byte behind it that is left alone. -/
theorem decodeRest_repeatable_iff_sample :
    RWSet.decode (encodeAround 1 3 2 sampleSection ++ [9]) =
        .ok (decodedSet 1 3 48 2 (sampleSection ++ [9])) ∧
      (decodedSet 1 3 48 2 (sampleSection ++ [9])).Repeatable := by
  have hdecode : RWSet.decode (encodeAround 1 3 2 sampleSection ++ [9]) =
      .ok (decodedSet 1 3 48 2 (sampleSection ++ [9])) := by decide
  have hfits : (decodedSet 1 3 48 2 (sampleSection ++ [9])).SectionFits :=
    ⟨by decide, sampleRelations, decodeSection_ok.mp (by decide), by decide⟩
  exact ⟨hdecode, (decodeRest_repeatable_iff _ _ hdecode).mpr (Or.inr hfits)⟩

/-- A section of the single byte 0, which begins no relation: the first call fails and takes the
byte, and the second one panics. -/
theorem failed_section_not_repeatable :
    ¬ ∀ (buf : Bytes) (rwset : RWSet), RWSet.decode buf = .ok rwset → rwset.Repeatable := by
  intro h
  have hrep := h [0, 0, 0, 1, 0, 0, 0, 0, 0, 0, 0, 3, 0, 0, 0, 1, 0, 0, 0, 1, 0]
    (decodedSet 1 3 1 1 [0]) rfl
  have hpanic : ((decodedSet 1 3 1 1 [0]).afterCalls 1).decodeRest.1 =
      .error (.context "Failed to decode relations" (.panic "split_to out of bounds")) := rfl
  exact absurd ((hrep 1).1 _ hpanic).1 (by decide)

end Sunstorm
