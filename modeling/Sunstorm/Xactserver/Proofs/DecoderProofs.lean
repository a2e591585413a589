import Sunstorm.Xactserver.Format
import Sunstorm.Codec.Proofs.ReaderProofs
import Mathlib.Tactic.NormNum

/-!
# Proofs: what the decoder reads

Each reader of the decoder reads exactly the words of the format and fails with errors only, never
with a panic. The one panic left is the slice of `decode_relations`.
-/

namespace Sunstorm

open Codec

/-- The failures that are errors. -/
def NoPanic (e : Failure) : Prop := e.isPanic = false

theorem noPanic_context {e : Failure} (text : String) (h : NoPanic e) :
    NoPanic (e.context text) := by
  cases e with
  | err e => rfl
  | panic t => exact h

/-! ## Numbers -/

theorem reads_bufGet_of_guard (size : Nat) (ofNat : Nat → α) :
    Reads (getNum size ofNat) (fun x w => w.length = size ∧ x = ofNat (ofBe w)) := by
  intro b x rest
  unfold getNum bufGet
  by_cases hb : size ≤ b.length
  · simp only [if_pos hb, Except.ok.injEq, Prod.mk.injEq]
    constructor
    · rintro ⟨rfl, rfl⟩
      exact ⟨b.take size, ⟨by simp [hb], rfl⟩, by simp⟩
    · rintro ⟨w, ⟨rfl, rfl⟩, rfl⟩
      simp
  · simp only [if_neg hb]
    constructor
    · intro h; exact absurd h (by simp)
    · rintro ⟨w, ⟨rfl, -⟩, rfl⟩
      exact absurd (by simp) hb

/-- A reader of numbers of a fixed width reads exactly their big-endian words. -/
theorem reads_getNum {size : Nat} {ofNat : Nat → α} {toNat : α → Nat}
    (hlt : ∀ x, toNat x < 256 ^ size) (hof : ∀ n, n < 256 ^ size → toNat (ofNat n) = n)
    (hto : ∀ x, ofNat (toNat x) = x) :
    Reads (getNum size ofNat) (fun x w => w = toBe size (toNat x)) := by
  refine (reads_bufGet_of_guard size ofNat).congr fun x w => ?_
  constructor
  · rintro ⟨rfl, rfl⟩
    rw [hof _ (ofBe_lt w), toBe_ofBe]
  · rintro rfl
    rw [ofBe_toBe_of_lt (hlt x), hto]
    exact ⟨toBe_length _ _, rfl⟩

theorem reads_getU8 : Reads getU8 (fun x w => w = toBe 1 x.toNat) :=
  reads_getNum (fun x => x.toNat_lt) (fun n h => by simpa using Nat.mod_eq_of_lt h)
    (fun x => by simp)

theorem reads_getU16 : Reads getU16 (fun x w => w = toBe 2 x.toNat) :=
  reads_getNum (fun x => x.toNat_lt) (fun n h => by simpa using Nat.mod_eq_of_lt h)
    (fun x => by simp)

theorem reads_getU32 : Reads getU32 (fun x w => w = toBe 4 x.toNat) :=
  reads_getNum (fun x => x.toNat_lt) (fun n h => by simpa using Nat.mod_eq_of_lt h)
    (fun x => by simp)

theorem reads_getU64 : Reads getU64 (fun x w => w = toBe 8 x.toNat) :=
  reads_getNum (fun x => x.toNat_lt) (fun n h => by simpa using Nat.mod_eq_of_lt h)
    (fun x => by simp)

theorem getNum_noPanic (size : Nat) (ofNat : Nat → α) : FailsOnly (getNum size ofNat) NoPanic := by
  intro b e h
  unfold getNum bufGet at h
  by_cases hb : size ≤ b.length
  · simp only [if_pos hb] at h
    exact absurd h (by simp)
  · simp only [if_neg hb, Except.error.injEq] at h
    subst h
    rfl

theorem reads_context {p : Decode α} {E : α → Bytes → Prop} (hp : Reads p E) (text : String) :
    Reads (p.context text) E := hp.mapFailure _

theorem context_noPanic {p : Decode α} (hp : FailsOnly p NoPanic) (text : String) :
    FailsOnly (p.context text) NoPanic :=
  hp.mapFailure fun _ he => noPanic_context text he

/-! ## Relations -/

theorem reads_decodeTuple : Reads Relation.decodeTuple (fun t w => w = t.encode) := by
  refine ((reads_context reads_getU32 _).bind fun blocknum =>
    (reads_context reads_getU16 _).bind fun offset => reads_pure _).congr fun t w => ?_
  constructor
  · rintro ⟨blocknum, u, v, rfl, ⟨offset, u', v', rfl, ⟨rfl, rfl⟩, rfl⟩, rfl⟩
    simp [Tuple.encode]
  · rintro rfl
    exact ⟨t.blocknum, _, _, rfl, ⟨t.offset, _, _, rfl, ⟨rfl, rfl⟩, rfl⟩, by simp [Tuple.encode]⟩

theorem reads_decodePage : Reads Relation.decodePage (fun p w => w = p.encode) := by
  refine ((reads_context reads_getU32 _).bind fun blocknum => reads_pure _).congr fun p w => ?_
  constructor
  · rintro ⟨blocknum, u, v, rfl, ⟨rfl, rfl⟩, rfl⟩
    simp [Page.encode]
  · rintro rfl
    exact ⟨p.blocknum, _, _, rfl, ⟨rfl, rfl⟩, by simp [Page.encode]⟩

/-- A list of values with a fixed word each has exactly one word. -/
theorem words_fun {α : Type} (f : α → Bytes) (as : List α) (w : Bytes) :
    Words (fun a u => u = f a) as w ↔ w = (as.map f).flatten := by
  induction as generalizing w with
  | nil => simp
  | cons a as ih =>
    rw [words_cons]
    constructor
    · rintro ⟨u, v, rfl, hv, rfl⟩
      simp [(ih v).mp hv]
    · rintro rfl
      exact ⟨_, _, rfl, (ih _).mpr rfl, by simp⟩

/-- The word of a relation, for some byte `is_table_scan` that fits. -/
def RelationWord (r : Relation) (w : Bytes) : Prop :=
  r.Counted ∧ ∃ scan, r.ScanFits scan ∧ w = r.encodeWith scan

theorem reads_decodeTable :
    Reads (Relation.decodeRelation false) (fun r w => ∃ oid region csn scan nTuples tuples,
      r = .table oid region csn (scan != 0) nTuples tuples ∧ r.Counted ∧
        [84] ++ w = r.encodeWith scan) := by
  refine ((reads_context reads_getU32 _).bind fun oid => (reads_context reads_getU8 _).bind
    fun region => (reads_context reads_getU64 _).bind fun csn => (reads_context reads_getU8 _).bind
    fun scan => (reads_context reads_getU32 _).bind fun n =>
    (reads_times (fun _ => reads_context reads_decodeTuple _) n.toNat []).bind
    fun tuples => reads_pure _).congr fun r w => ?_
  constructor
  · rintro ⟨oid, _, _, rfl, ⟨region, _, _, rfl, ⟨csn, _, _, rfl, ⟨scan, _, _, rfl, ⟨n, _, _, rfl,
      ⟨tuples, _, _, ⟨xs, rfl, hlen, hw⟩, ⟨rfl, rfl⟩, rfl⟩, rfl⟩, rfl⟩, rfl⟩, rfl⟩, rfl⟩
    rw [words_fun] at hw
    exact ⟨oid, region, csn, scan, n, _, rfl, by simp [Relation.Counted, hlen],
      by simp [Relation.encodeWith, hw]⟩
  · rintro ⟨oid, region, csn, scan, n, tuples, rfl, hc, hw⟩
    refine ⟨oid, _, _, rfl, ⟨region, _, _, rfl, ⟨csn, _, _, rfl, ⟨scan, _, _, rfl, ⟨n, _, _, rfl,
      ⟨tuples, _, _, ⟨tuples, by simp, hc.symm, (words_fun _ _ _).mpr rfl⟩, ⟨rfl, rfl⟩, rfl⟩, rfl⟩,
      rfl⟩, rfl⟩, rfl⟩, ?_⟩
    simpa [Relation.encodeWith] using hw

theorem reads_decodeIndex :
    Reads (Relation.decodeRelation true) (fun r w => ∃ oid region csn scan nPages pages,
      r = .index oid region csn nPages pages ∧ r.Counted ∧ [73] ++ w = r.encodeWith scan) := by
  refine ((reads_context reads_getU32 _).bind fun oid => (reads_context reads_getU8 _).bind
    fun region => (reads_context reads_getU64 _).bind fun csn => (reads_context reads_getU8 _).bind
    fun scan => (reads_context reads_getU32 _).bind fun n =>
    (reads_times (fun _ => reads_context reads_decodePage _) n.toNat []).bind
    fun pages => reads_pure _).congr fun r w => ?_
  constructor
  · rintro ⟨oid, _, _, rfl, ⟨region, _, _, rfl, ⟨csn, _, _, rfl, ⟨scan, _, _, rfl, ⟨n, _, _, rfl,
      ⟨pages, _, _, ⟨xs, rfl, hlen, hw⟩, ⟨rfl, rfl⟩, rfl⟩, rfl⟩, rfl⟩, rfl⟩, rfl⟩, rfl⟩
    rw [words_fun] at hw
    exact ⟨oid, region, csn, scan, n, _, rfl, by simp [Relation.Counted, hlen],
      by simp [Relation.encodeWith, hw]⟩
  · rintro ⟨oid, region, csn, scan, n, pages, rfl, hc, hw⟩
    refine ⟨oid, _, _, rfl, ⟨region, _, _, rfl, ⟨csn, _, _, rfl, ⟨scan, _, _, rfl, ⟨n, _, _, rfl,
      ⟨pages, _, _, ⟨pages, by simp, hc.symm, (words_fun _ _ _).mpr rfl⟩, ⟨rfl, rfl⟩, rfl⟩, rfl⟩,
      rfl⟩, rfl⟩, rfl⟩, ?_⟩
    simpa [Relation.encodeWith] using hw

/-- The rest of a relation after its tag. -/
theorem encodeWith_tag (r : Relation) (scan : UInt8) :
    ∃ w, r.encodeWith scan = [84] ++ w ∨ r.encodeWith scan = [73] ++ w := by
  refine ⟨(r.encodeWith scan).tail, ?_⟩
  cases r with
  | table oid region csn isTableScan nTuples tuples => exact Or.inl (by simp [Relation.encodeWith])
  | index oid region csn nPages pages => exact Or.inr (by simp [Relation.encodeWith])

theorem relationWord_ne_nil (r : Relation) : ¬ RelationWord r [] := by
  rintro ⟨-, scan, -, h⟩
  obtain ⟨w, hw | hw⟩ := encodeWith_tag r scan <;> (rw [hw] at h; exact absurd h (by simp))

/-- `Relation::decode` reads exactly the words of relations. -/
theorem reads_decode : Reads Relation.decode RelationWord := by
  have htag : ∀ tag : UInt8, Reads
      (if tag = 84 then (Relation.decodeRelation false).context "Failed to decode table"
        else if tag = 73 then (Relation.decodeRelation true).context "Failed to decode index"
        else Reader.fail (.msg s!"Invalid relation type: {tag.toNat}"))
      (fun r w => RelationWord r ([tag] ++ w)) := by
    intro tag
    by_cases h84 : tag = 84
    · subst h84
      refine (reads_context reads_decodeTable _).congr fun r w => ?_
      constructor
      · rintro ⟨oid, region, csn, scan, n, tuples, rfl, hc, hw⟩
        exact ⟨hc, scan, rfl, hw⟩
      · rintro ⟨hc, scan, hs, hw⟩
        cases r with
        | table oid region csn isTableScan n tuples =>
          have hs' : (scan != 0) = isTableScan := hs
          subst hs'
          exact ⟨oid, region, csn, scan, n, tuples, rfl, hc, hw⟩
        | index oid region csn n pages => exact absurd hw (by simp [Relation.encodeWith])
    · rw [if_neg h84]
      by_cases h73 : tag = 73
      · subst h73
        refine (reads_context reads_decodeIndex _).congr fun r w => ?_
        constructor
        · rintro ⟨oid, region, csn, scan, n, pages, rfl, hc, hw⟩
          exact ⟨hc, scan, trivial, hw⟩
        · rintro ⟨hc, scan, hs, hw⟩
          cases r with
          | table oid region csn isTableScan n tuples =>
            exact absurd hw (by simp [Relation.encodeWith])
          | index oid region csn n pages => exact ⟨oid, region, csn, scan, n, pages, rfl, hc, hw⟩
      · rw [if_neg h73]
        refine (reads_fail _).congr fun r w => ⟨False.elim, ?_⟩
        rintro ⟨-, scan, -, hw⟩
        obtain ⟨v, hv | hv⟩ := encodeWith_tag r scan
        · rw [hv] at hw; exact h84 (List.cons.inj hw).1
        · rw [hv] at hw; exact h73 (List.cons.inj hw).1
  refine ((reads_context reads_getU8 _).bind htag).congr fun r w => ?_
  have hbyte : ∀ tag : UInt8, toBe 1 tag.toNat = [tag] := by intro tag; simp [toBe]
  constructor
  · rintro ⟨tag, u, v, rfl, hv, rfl⟩
    rw [hbyte]
    exact hv
  · intro hw
    cases w with
    | nil => exact absurd hw (relationWord_ne_nil r)
    | cons tag w => exact ⟨tag, _, w, rfl, hw, by rw [hbyte]; rfl⟩

theorem decodeTuple_noPanic : FailsOnly Relation.decodeTuple NoPanic :=
  (context_noPanic (getNum_noPanic _ _) _).bind fun _ =>
    (context_noPanic (getNum_noPanic _ _) _).bind fun _ => failsOnly_pure _ _

theorem decodePage_noPanic : FailsOnly Relation.decodePage NoPanic :=
  (context_noPanic (getNum_noPanic _ _) _).bind fun _ => failsOnly_pure _ _

theorem decodeRelation_noPanic (isIndex : Bool) :
    FailsOnly (Relation.decodeRelation isIndex) NoPanic := by
  have hnum : ∀ {α : Type} (size : Nat) (ofNat : Nat → α) (text : String),
      FailsOnly (Decode.context text (getNum size ofNat)) NoPanic :=
    fun size ofNat text => context_noPanic (getNum_noPanic size ofNat) text
  refine (hnum _ _ _).bind fun relid => (hnum _ _ _).bind fun region => (hnum _ _ _).bind
    fun csn => (hnum _ _ _).bind fun scan => (hnum _ _ _).bind fun nitems => ?_
  cases isIndex with
  | true =>
    exact (failsOnly_times (fun _ => context_noPanic decodePage_noPanic _) _ _).bind
      fun _ => failsOnly_pure _ _
  | false =>
    exact (failsOnly_times (fun _ => context_noPanic decodeTuple_noPanic _) _ _).bind
      fun _ => failsOnly_pure _ _

theorem decode_noPanic : FailsOnly Relation.decode NoPanic := by
  refine (context_noPanic (getNum_noPanic _ _) _).bind fun tag => ?_
  split_ifs
  · exact context_noPanic (decodeRelation_noPanic false) _
  · exact context_noPanic (decodeRelation_noPanic true) _
  · exact failsOnly_fail rfl

/-! ## The relations section -/

/-- The loop of `decode_relations` returns the relations whose words make up the section. -/
theorem decodeSection_ok {buf : Bytes} {relations : List Relation} :
    RWSet.decodeSection buf = .ok relations ↔ Words RelationWord relations buf := by
  have h := untilEmpty_iff
    (fun relations : List Relation => reads_context reads_decode
      s!"Failed to decode relation. Relations decoded: {relations.length}")
    relationWord_ne_nil (.panic "out of fuel") buf.length [] buf le_rfl
  unfold RWSet.decodeSection
  split
  · rename_i rs rest heq
    obtain ⟨rfl, xs, rfl, hw⟩ := (h rs rest).mp heq
    simp only [Except.ok.injEq]
    constructor
    · rintro rfl; exact hw
    · intro hw'
      have := (h relations []).mpr ⟨rfl, relations, by simp, hw'⟩
      rw [heq] at this
      simpa using this
  · rename_i e heq
    refine ⟨fun hh => absurd hh (by simp), fun hw' => ?_⟩
    have := (h relations []).mpr ⟨rfl, relations, by simp, hw'⟩
    rw [heq] at this
    exact absurd this (by simp)

/-- The fuel of the loop is enough: it never panics. -/
theorem decodeSection_noPanic {buf : Bytes} {e : Failure}
    (h : RWSet.decodeSection buf = .error e) : NoPanic e := by
  unfold RWSet.decodeSection at h
  split at h
  · exact absurd h (by simp)
  · rename_i e' heq
    rw [← Except.error.inj h]
    exact untilEmpty_failsOnly (fun _ => reads_context reads_decode _) relationWord_ne_nil
      (fun _ => context_noPanic decode_noPanic _) _ _ _ _ le_rfl _ heq

/-- The three outcomes of `decode_relations`: a panic when the section does not fit, an error, or
the relations of the section and the bytes behind it. -/
theorem decodeRelations_cases (buf : Bytes) (len : Nat) (n : UInt32) :
    (buf.length < len ∧ ∃ t, RWSet.decodeRelations buf len n = (.error (.panic t), buf)) ∨
    (len ≤ buf.length ∧ ((∃ e, NoPanic e ∧
        RWSet.decodeRelations buf len n = (.error e, buf.drop len)) ∨
      ∃ relations, Words RelationWord relations (buf.take len) ∧
        n = UInt32.ofNat relations.length ∧
        RWSet.decodeRelations buf len n = (.ok relations, buf.drop len))) := by
  unfold RWSet.decodeRelations RWSet.splitTo
  by_cases hlen : len ≤ buf.length
  · refine Or.inr ⟨hlen, ?_⟩
    rw [if_pos hlen]
    cases hs : RWSet.decodeSection (buf.take len) with
    | error e => exact Or.inl ⟨e, decodeSection_noPanic hs, by simp only [hs]⟩
    | ok relations =>
      by_cases hn : n = UInt32.ofNat relations.length
      · exact Or.inr ⟨relations, decodeSection_ok.mp hs, hn, by simp only [hs, if_pos hn]⟩
      · exact Or.inl ⟨.msg _, rfl, by simp only [hs, if_neg hn]; rfl⟩
  · refine Or.inl ⟨Nat.lt_of_not_le hlen, "split_to out of bounds", ?_⟩
    rw [if_neg hlen]

end Sunstorm
