import Sunstorm.Xactserver.Proofs.DecoderProofs
import Mathlib.Data.Nat.Bitwise

/-!
# Proofs: the read/write set decoder and its format

`decode_eq_ok` says what `RWSet::decode` accepts, byte for byte. From it follow the two directions
of the round trip and the exact inputs on which decoding a read/write set and its rest cannot
panic.
-/

namespace Sunstorm

open Codec

/-! ## The set of regions -/

theorem mem_foldl_insert {P : Nat → Prop} [DecidablePred P] (l : List Nat) (s : BitSet) (i : Nat) :
    i ∈ l.foldl (fun acc j => if P j then insert j acc else acc) s ↔ i ∈ s ∨ (i ∈ l ∧ P i) := by
  induction l generalizing s with
  | nil => simp
  | cons j l ih =>
    rw [List.foldl_cons, ih]
    by_cases hj : P j
    · rw [if_pos hj, Finset.mem_insert, List.mem_cons]
      constructor
      · rintro ((rfl | h) | ⟨h, hi⟩)
        · exact Or.inr ⟨Or.inl rfl, hj⟩
        · exact Or.inl h
        · exact Or.inr ⟨Or.inr h, hi⟩
      · rintro (h | ⟨rfl | h, hi⟩)
        · exact Or.inl (Or.inr h)
        · exact Or.inl (Or.inl rfl)
        · exact Or.inr ⟨h, hi⟩
    · rw [if_neg hj, List.mem_cons]
      constructor
      · rintro (h | ⟨h, hi⟩)
        · exact Or.inl h
        · exact Or.inr ⟨Or.inr h, hi⟩
      · rintro (h | ⟨rfl | h, hi⟩)
        · exact Or.inl h
        · exact absurd hi hj
        · exact Or.inr ⟨h, hi⟩

theorem shiftRight_and_one (r : UInt64) {i : Nat} (hi : i < 64) :
    (r >>> UInt64.ofNat i) &&& 1 = 1 ↔ r.toNat.testBit i = true := by
  rw [← UInt64.toNat_inj, UInt64.toNat_and, UInt64.toNat_shiftRight]
  have h1 : (UInt64.ofNat i).toNat % 64 = i := by simp; omega
  rw [h1, Nat.testBit_eq_decide_div_mod_eq, Nat.shiftRight_eq_div_pow]
  simp

/-- The participants are the positions of the bits of the region set. -/
theorem mem_participantsOf (r : UInt64) (i : Nat) :
    i ∈ participantsOf r ↔ i < 64 ∧ r.toNat.testBit i = true := by
  unfold participantsOf
  rw [mem_foldl_insert]
  simp only [Finset.notMem_empty, false_or, List.mem_range]
  constructor
  · rintro ⟨hi, h⟩; exact ⟨hi, (shiftRight_and_one r hi).mp h⟩
  · rintro ⟨hi, h⟩; exact ⟨hi, (shiftRight_and_one r hi).mpr h⟩

theorem testBit_foldl_or (l : List Nat) (s : BitSet) (acc i : Nat) :
    (l.foldl (fun acc j => if j ∈ s then acc ||| 2 ^ j else acc) acc).testBit i =
      (acc.testBit i || decide (i ∈ l ∧ i ∈ s)) := by
  induction l generalizing acc with
  | nil => simp
  | cons j l ih =>
    rw [List.foldl_cons, ih]
    by_cases hj : j ∈ s
    · rw [if_pos hj, Nat.testBit_or, Nat.testBit_two_pow]
      by_cases hij : j = i
      · subst hij; simp [hj]
      · have hij' : ¬ i = j := fun h => hij h.symm
        simp [hij, hij']
    · rw [if_neg hj]
      by_cases hij : i = j
      · subst hij; simp [hj]
      · simp [hij]

/-- The region set is recovered from the participants. -/
theorem regionSetOf_participantsOf (r : UInt64) : regionSetOf (participantsOf r) = r := by
  unfold regionSetOf
  have h : (List.range 64).foldl
      (fun acc i => if i ∈ participantsOf r then acc ||| 2 ^ i else acc) 0 = r.toNat := by
    apply Nat.eq_of_testBit_eq
    intro i
    rw [testBit_foldl_or]
    by_cases hi : i < 64
    · simp [mem_participantsOf, hi]
    · have hlt : r.toNat < 2 ^ i :=
        lt_of_lt_of_le r.toNat_lt (Nat.pow_le_pow_right (by norm_num) (by omega))
      simp [hi, Nat.testBit_lt_two_pow hlt]
  rw [h, UInt64.ofNat_toNat]

/-! ## What `RWSet::decode` accepts -/

theorem reads_header : Reads RWSetHeader.decode (fun h w => ∃ dbid regionSet,
    h = ⟨dbid, participantsOf regionSet⟩ ∧ w = toBe 4 dbid.toNat ++ toBe 8 regionSet.toNat) := by
  refine ((reads_context reads_getU32 _).bind fun dbid =>
    (reads_context reads_getU64 _).bind fun regionSet => reads_pure _).congr fun h w => ?_
  constructor
  · rintro ⟨dbid, _, _, rfl, ⟨regionSet, _, _, rfl, ⟨rfl, rfl⟩, rfl⟩, rfl⟩
    exact ⟨dbid, regionSet, rfl, by simp⟩
  · rintro ⟨dbid, regionSet, rfl, rfl⟩
    exact ⟨dbid, _, _, rfl, ⟨regionSet, _, _, rfl, ⟨rfl, rfl⟩, rfl⟩, by simp⟩

theorem header_noPanic : FailsOnly RWSetHeader.decode NoPanic :=
  (context_noPanic (getNum_noPanic _ _) _).bind fun _ =>
    (context_noPanic (getNum_noPanic _ _) _).bind fun _ => failsOnly_pure _ _

/-- What is left of a read/write set after `RWSet::decode`, for the fields it read. -/
def decodedSet (dbid : UInt32) (regionSet : UInt64) (len n : UInt32) (rest : Bytes) : RWSet :=
  { header := ⟨dbid, participantsOf regionSet⟩, relationsLen := len.toNat, nRelations := n,
    relations := none, remainder := rest, decodedAll := false }

/-- `RWSet::decode` accepts a buffer of at least four fields; the declared length is compared with
the bytes that follow it, the relation count included. -/
theorem decode_eq_ok {buf : Bytes} {rwset : RWSet} :
    RWSet.decode buf = .ok rwset ↔ ∃ dbid regionSet len n rest,
      buf = toBe 4 dbid.toNat ++ toBe 8 regionSet.toNat ++ toBe 4 len.toNat ++
        (toBe 4 n.toNat ++ rest) ∧ len.toNat ≤ 4 + rest.length ∧
      rwset = decodedSet dbid regionSet len n rest := by
  have hhead := reads_context reads_header "Failed to decode header"
  have hlen := reads_context reads_getU32 "Failed to decode length"
  have hnum := reads_context reads_getU32 "Failed to decode number of relations"
  constructor
  · intro h
    unfold RWSet.decode at h
    split at h
    · exact absurd h (by simp)
    · rename_i header b1 h1
      obtain ⟨_, ⟨dbid, regionSet, rfl, rfl⟩, rfl⟩ := (hhead _ _ _).mp h1
      split at h
      · exact absurd h (by simp)
      · rename_i len b2 h2
        obtain ⟨_, rfl, rfl⟩ := (hlen _ _ _).mp h2
        unfold RWSet.decodeCount at h
        split_ifs at h with hle
        split at h
        · rename_i n b3 h3
          obtain ⟨_, rfl, rfl⟩ := (hnum _ _ _).mp h3
          refine ⟨dbid, regionSet, len, n, b3, by simp, ?_, (Except.ok.inj h).symm⟩
          simpa using hle
        · exact absurd h (by simp)
  · rintro ⟨dbid, regionSet, len, n, rest, rfl, hle, rfl⟩
    have h1 := (hhead _ ⟨dbid, participantsOf regionSet⟩
      (toBe 4 len.toNat ++ (toBe 4 n.toNat ++ rest))).mpr ⟨_, ⟨dbid, regionSet, rfl, rfl⟩, rfl⟩
    have h2 := (hlen _ len (toBe 4 n.toNat ++ rest)).mpr ⟨_, rfl, rfl⟩
    have h3 := (hnum _ n rest).mpr ⟨_, rfl, rfl⟩
    have hle' : len.toNat ≤ (toBe 4 n.toNat ++ rest).length := by simpa using hle
    unfold RWSet.decode
    rw [List.append_assoc (toBe 4 dbid.toNat ++ toBe 8 regionSet.toNat), h1]
    simp only [h2]
    unfold RWSet.decodeCount
    rw [if_pos hle', h3]
    rfl

theorem decodeCount_noPanic {header : RWSetHeader} {len : Nat} {buf : Bytes} {e : Failure}
    (h : RWSet.decodeCount header len buf = .error e) : NoPanic e := by
  unfold RWSet.decodeCount at h
  split_ifs at h with hle
  · split at h
    · exact absurd h (by simp)
    · rename_i e' heq
      rw [← Except.error.inj h]
      exact context_noPanic (getNum_noPanic _ _) _ _ _ heq
  · rw [← Except.error.inj h]
    rfl

/-- `RWSet::decode` never panics. -/
theorem rwset_decode_noPanic {buf : Bytes} {e : Failure} (h : RWSet.decode buf = .error e) :
    NoPanic e := by
  unfold RWSet.decode at h
  split at h
  · rename_i e' heq
    rw [← Except.error.inj h]
    exact context_noPanic header_noPanic _ _ _ heq
  · split at h
    · rename_i e' heq
      rw [← Except.error.inj h]
      exact context_noPanic (getNum_noPanic _ _) _ _ _ heq
    · exact decodeCount_noPanic h

/-! ## What `RWSet::decode_rest` does to a set that was just decoded -/

/-- The three outcomes of `decode_rest` on a set whose relations were not decoded yet. -/
theorem decodeRest_cases (rwset : RWSet) (hd : rwset.decodedAll = false) :
    (rwset.remainder.length < rwset.relationsLen ∧
      ∃ t, rwset.decodeRest = (.error (.panic t), rwset)) ∨
    (rwset.relationsLen ≤ rwset.remainder.length ∧ ((∃ e, NoPanic e ∧ rwset.decodeRest =
        (.error e, { rwset with remainder := rwset.remainder.drop rwset.relationsLen })) ∨
      ∃ relations, Words RelationWord relations (rwset.remainder.take rwset.relationsLen) ∧
        rwset.nRelations = UInt32.ofNat relations.length ∧
        rwset.decodeRest = (.ok (), { rwset with
          relations := some relations
          remainder := rwset.remainder.drop rwset.relationsLen
          decodedAll := true }))) := by
  obtain ⟨header, len, n, rels, remainder, all⟩ := rwset
  have hall : all = false := hd
  subst hall
  unfold RWSet.decodeRest
  simp only [Bool.false_eq_true, if_false]
  rcases decodeRelations_cases remainder len n with
    ⟨hlt, t, h⟩ | ⟨hle, ⟨e, he, h⟩ | ⟨relations, hw, hn, h⟩⟩
  · exact Or.inl ⟨hlt, t, by rw [h]; rfl⟩
  · exact Or.inr ⟨hle, Or.inl ⟨e.context "Failed to decode relations", noPanic_context _ he,
      by rw [h]⟩⟩
  · exact Or.inr ⟨hle, Or.inr ⟨relations, hw, hn, by rw [h]⟩⟩

/-- A section that is there, and made of the announced number of relations, is decoded. -/
theorem decodeRest_of_words {rwset : RWSet} {relations : List Relation}
    (hd : rwset.decodedAll = false) (hle : rwset.relationsLen ≤ rwset.remainder.length)
    (hw : Words RelationWord relations (rwset.remainder.take rwset.relationsLen))
    (hn : rwset.nRelations = UInt32.ofNat relations.length) :
    rwset.decodeRest = (.ok (), { rwset with
      relations := some relations
      remainder := rwset.remainder.drop rwset.relationsLen
      decodedAll := true }) := by
  have hsec := decodeSection_ok.mpr hw
  unfold RWSet.decodeRest RWSet.decodeRelations RWSet.splitTo
  rw [if_pos hle]
  simp only [hd, hsec, if_pos hn]
  rfl

/-! ## Panics -/

/-- Decoding the buffer and then its rest never panics, and the section that `decode` accepts
fits the bytes that are left for it. -/
def DecodesTotally (buf : Bytes) : Prop :=
  (∀ e, RWSet.decode buf = .error e → e.isPanic = false) ∧
  ∀ rwset, RWSet.decode buf = .ok rwset →
    rwset.relationsLen ≤ rwset.remainder.length ∧
    ∀ e rwset', rwset.decodeRest = (.error e, rwset') → e.isPanic = false

theorem declaredLen_eq (dbid : UInt32) (regionSet : UInt64) (len : UInt32) (rest : Bytes) :
    declaredLen (toBe 4 dbid.toNat ++ toBe 8 regionSet.toNat ++ toBe 4 len.toNat ++ rest) =
      len.toNat := by
  unfold declaredLen
  have hd : (toBe 4 dbid.toNat ++ toBe 8 regionSet.toNat ++ toBe 4 len.toNat ++ rest).drop 12 =
      toBe 4 len.toNat ++ rest := by
    rw [List.append_assoc, List.drop_left' (by simp)]
  rw [hd, List.take_left' (by simp), ofBe_toBe_of_lt (UInt32.toNat_lt len)]

/-- The bytes of a number of the given width. -/
theorem exists_toBe (bs : Bytes) : ∃ x, x < 256 ^ bs.length ∧ bs = toBe bs.length x :=
  ⟨ofBe bs, ofBe_lt bs, (toBe_ofBe bs).symm⟩

/-- A buffer of twenty bytes at least is made of the four fields and a rest. -/
theorem exists_fields {buf : Bytes} (h : 20 ≤ buf.length) :
    ∃ (dbid : UInt32) (regionSet : UInt64) (len n : UInt32) (rest : Bytes),
      buf = toBe 4 dbid.toNat ++ toBe 8 regionSet.toNat ++ toBe 4 len.toNat ++
        (toBe 4 n.toNat ++ rest) := by
  have h32 : ∀ bs : Bytes, bs.length = 4 → ∃ x : UInt32, bs = toBe 4 x.toNat := by
    intro bs hbs
    obtain ⟨x, hx, hxe⟩ := exists_toBe bs
    rw [hbs] at hx hxe
    refine ⟨UInt32.ofNat x, ?_⟩
    rw [hxe, UInt32.toNat_ofNat', Nat.mod_eq_of_lt (by simpa using hx)]
  obtain ⟨dbid, hdbid⟩ := h32 (buf.take 4) (by simp; omega)
  obtain ⟨len, hlen⟩ := h32 ((buf.drop 12).take 4) (by simp; omega)
  obtain ⟨n, hn⟩ := h32 ((buf.drop 16).take 4) (by simp; omega)
  obtain ⟨x, hx, hxe⟩ := exists_toBe ((buf.drop 4).take 8)
  have h8 : ((buf.drop 4).take 8).length = 8 := by simp; omega
  rw [h8] at hx hxe
  refine ⟨dbid, UInt64.ofNat x, len, n, buf.drop 20, ?_⟩
  rw [UInt64.toNat_ofNat', Nat.mod_eq_of_lt (by simpa using hx), ← hdbid, ← hlen, ← hn, ← hxe]
  have e1 : buf = buf.take 4 ++ buf.drop 4 := (List.take_append_drop 4 buf).symm
  have e2 : buf.drop 4 = (buf.drop 4).take 8 ++ buf.drop 12 := by
    conv_lhs => rw [← List.take_append_drop 8 (buf.drop 4)]
    rw [List.drop_drop]
  have e3 : buf.drop 12 = (buf.drop 12).take 4 ++ buf.drop 16 := by
    conv_lhs => rw [← List.take_append_drop 4 (buf.drop 12)]
    rw [List.drop_drop]
  have e4 : buf.drop 16 = (buf.drop 16).take 4 ++ buf.drop 20 := by
    conv_lhs => rw [← List.take_append_drop 4 (buf.drop 16)]
    rw [List.drop_drop]
  rw [List.append_assoc, ← e4, ← e3, List.append_assoc, ← e2, ← e1]

/-- Decoding panics exactly on the buffers that `decode` accepts although up to four bytes of the
declared section are missing, the relation count having been counted as part of it. -/
theorem decodesTotally_iff (buf : Bytes) :
    DecodesTotally buf ↔
      buf.length < 20 ∨ buf.length < 16 + declaredLen buf ∨ 20 + declaredLen buf ≤ buf.length := by
  by_cases h20 : buf.length < 20
  · refine ⟨fun _ => Or.inl h20, fun _ => ⟨fun e he => rwset_decode_noPanic he, ?_⟩⟩
    intro rwset hok
    obtain ⟨dbid, regionSet, len, n, rest, rfl, -, -⟩ := decode_eq_ok.mp hok
    simp at h20
    omega
  · obtain ⟨dbid, regionSet, len, n, rest, rfl⟩ := exists_fields (Nat.le_of_not_lt h20)
    rw [declaredLen_eq]
    have hlength : (toBe 4 dbid.toNat ++ toBe 8 regionSet.toNat ++ toBe 4 len.toNat ++
        (toBe 4 n.toNat ++ rest)).length = 20 + rest.length := by simp; omega
    rw [hlength]
    constructor
    · rintro ⟨-, hok⟩
      by_cases hle : len.toNat ≤ 4 + rest.length
      · have hfit := (hok _ (decode_eq_ok.mpr ⟨dbid, regionSet, len, n, rest, rfl, hle, rfl⟩)).1
        have hfit' : len.toNat ≤ rest.length := hfit
        omega
      · omega
    · intro hcond
      refine ⟨fun e he => rwset_decode_noPanic he, fun rwset hok => ?_⟩
      obtain ⟨dbid', regionSet', len', n', rest', heq, hle, rfl⟩ := decode_eq_ok.mp hok
      have hlen : len' = len := by
        have h := congrArg declaredLen heq
        rw [declaredLen_eq, declaredLen_eq] at h
        exact (UInt32.toNat_inj.mp h).symm
      have hrest : rest'.length = rest.length := by
        have h := congrArg List.length heq
        simp at h
        omega
      subst hlen
      have hfit : len'.toNat ≤ rest'.length := by omega
      refine ⟨hfit, fun e rwset' hr => ?_⟩
      rcases decodeRest_cases _ (rfl : (decodedSet dbid' regionSet' len' n' rest').decodedAll = false)
        with ⟨hlt, -⟩ | ⟨-, ⟨e', he', h⟩ | ⟨relations, -, -, h⟩⟩
      · exact absurd hfit (Nat.not_le_of_lt hlt)
      · rw [h] at hr
        obtain ⟨heq', -⟩ := Prod.mk.inj hr
        rw [← Except.error.inj heq']
        exact he'
      · rw [h] at hr
        exact absurd (Prod.mk.inj hr).1 (by simp)

/-- A read/write set of twenty bytes that declares a section of four bytes and has none: it is
accepted, and decoding its rest panics. -/
theorem truncated_section_panics : ¬ ∀ buf : Bytes, DecodesTotally buf := by
  intro h
  obtain ⟨-, hok⟩ := h [0, 0, 0, 1, 0, 0, 0, 0, 0, 0, 0, 3, 0, 0, 0, 4, 0, 0, 0, 0]
  obtain ⟨-, hrest⟩ := hok (decodedSet 1 3 4 0 []) rfl
  exact absurd (hrest _ _ rfl) (by decide)

/-! ## Round trips -/

theorem toBe_mod (n x : Nat) : toBe n (x % 256 ^ n) = toBe n x := by
  have h := toBe_ofBe (toBe n x)
  rw [toBe_length, ofBe_toBe] at h
  exact h

theorem scanFits_scan (r : Relation) : r.ScanFits r.scan := by
  cases r with
  | table oid region csn isTableScan nTuples tuples => cases isTableScan <;> rfl
  | index oid region csn nPages pages => trivial

/-- The words of a list of relations are its sections, for bytes `is_table_scan` that fit. -/
theorem words_relationWord {rs : List Relation} {w : Bytes} :
    Words RelationWord rs w ↔ ∃ (relations : List CountedRelation) (scans : List UInt8),
      rs = relations.map Subtype.val ∧
      List.Forall₂ (fun scan r => r.val.ScanFits scan) scans relations ∧
      w = encodeSectionWith scans relations := by
  induction rs generalizing w with
  | nil =>
    rw [words_nil]
    constructor
    · rintro rfl
      exact ⟨[], [], rfl, List.Forall₂.nil, rfl⟩
    · rintro ⟨relations, scans, hnil, hf, rfl⟩
      rw [List.map_eq_nil_iff.mp hnil.symm]
      simp [encodeSectionWith]
  | cons r rs ih =>
    rw [words_cons]
    constructor
    · rintro ⟨u, v, ⟨hc, scan, hs, rfl⟩, hv, rfl⟩
      obtain ⟨relations, scans, rfl, hf, rfl⟩ := ih.mp hv
      exact ⟨⟨r, hc⟩ :: relations, scan :: scans, rfl, List.Forall₂.cons hs hf, rfl⟩
    · rintro ⟨relations, scans, hmap, hf, rfl⟩
      cases relations with
      | nil => exact absurd hmap (by simp)
      | cons r' relations =>
        obtain ⟨rfl, rfl⟩ := List.cons.inj hmap
        obtain ⟨scan, scans', hs, hf', rfl⟩ := List.forall₂_cons_right_iff.mp hf
        exact ⟨_, _, ⟨r'.property, scan, hs, rfl⟩, ih.mpr ⟨relations, scans', rfl, hf', rfl⟩, rfl⟩

/-- The four fields of a read/write set in the form that `decode` reads them. -/
theorem encodeAround_append (dbid : UInt32) (regionSet : UInt64) (nRelations : Nat)
    (section_ trailing : Bytes) (h : section_.length < 2 ^ 32) :
    encodeAround dbid regionSet nRelations section_ ++ trailing =
      toBe 4 dbid.toNat ++ toBe 8 regionSet.toNat ++
        toBe 4 (UInt32.ofNat section_.length).toNat ++
        (toBe 4 (UInt32.ofNat nRelations).toNat ++ (section_ ++ trailing)) := by
  have hlen : (UInt32.ofNat section_.length).toNat = section_.length := by
    rw [UInt32.toNat_ofNat', Nat.mod_eq_of_lt h]
  have hn : toBe 4 (UInt32.ofNat nRelations).toNat = toBe 4 nRelations := by
    rw [UInt32.toNat_ofNat']
    exact toBe_mod 4 nRelations
  rw [hlen, hn]
  simp [encodeAround]

/-- The decoder inverts the encoding, whatever follows it; and a buffer that decodes is the encoding
of what was decoded and the bytes left over, up to the bytes `is_table_scan`. -/
theorem decode_encode_exact :
    (∀ (dbid : UInt32) (regionSet : UInt64) (relations : List CountedRelation) (trailing : Bytes),
      (encodeSection relations).length < 2 ^ 32 →
      ∃ rwset rwset', RWSet.decode (RWSet.encode dbid regionSet relations ++ trailing) = .ok rwset ∧
        rwset.decodeRest = (.ok (), rwset') ∧ rwset'.header.dbid = dbid ∧
        rwset'.relations = some (relations.map Subtype.val) ∧ rwset'.remainder = trailing ∧
        ∀ i, i ∈ rwset'.participants ↔ i < 64 ∧ regionSet.toNat.testBit i = true) ∧
    ∀ (buf : Bytes) (rwset rwset' : RWSet), RWSet.decode buf = .ok rwset →
      rwset.decodeRest = (.ok (), rwset') →
      ∃ (relations : List CountedRelation) (scans : List UInt8),
        rwset'.relations = some (relations.map Subtype.val) ∧
        List.Forall₂ (fun scan r => r.val.ScanFits scan) scans relations ∧
        buf = RWSet.encodeWith scans rwset'.header.dbid (regionSetOf rwset'.participants)
          relations ++ rwset'.remainder := by
  constructor
  · intro dbid regionSet relations trailing hlt
    have hlen : (UInt32.ofNat (encodeSection relations).length).toNat =
        (encodeSection relations).length := by rw [UInt32.toNat_ofNat', Nat.mod_eq_of_lt hlt]
    set rwset := decodedSet dbid regionSet (UInt32.ofNat (encodeSection relations).length)
      (UInt32.ofNat relations.length) (encodeSection relations ++ trailing) with hset
    have hdec : RWSet.decode (RWSet.encode dbid regionSet relations ++ trailing) = .ok rwset := by
      refine decode_eq_ok.mpr ⟨dbid, regionSet, _, _, _,
        encodeAround_append _ _ _ _ _ hlt, ?_, hset⟩
      rw [hlen, List.length_append]
      omega
    have hrl : rwset.relationsLen = (encodeSection relations).length := hlen
    have hwords : Words RelationWord (relations.map Subtype.val) (encodeSection relations) :=
      words_relationWord.mpr ⟨relations, _, rfl, by
        rw [List.forall₂_map_left_iff]
        exact List.forall₂_same.mpr fun r _ => scanFits_scan r.val, rfl⟩
    have htake : rwset.remainder.take rwset.relationsLen = encodeSection relations := by
      rw [hrl]; exact List.take_left' rfl
    have hle : rwset.relationsLen ≤ rwset.remainder.length := by
      have : rwset.remainder.length = (encodeSection relations).length + trailing.length :=
        List.length_append
      omega
    have hn : rwset.nRelations = UInt32.ofNat (relations.map Subtype.val).length := by
      rw [List.length_map]
      rfl
    refine ⟨rwset, _, hdec, decodeRest_of_words rfl hle (htake ▸ hwords) hn, rfl, rfl, ?_,
      fun i => mem_participantsOf regionSet i⟩
    show rwset.remainder.drop rwset.relationsLen = trailing
    rw [hrl]
    exact List.drop_left' rfl
  · intro buf rwset rwset' hdec hrest
    obtain ⟨dbid, regionSet, len, n, rest, rfl, -, rfl⟩ := decode_eq_ok.mp hdec
    rcases decodeRest_cases _ (rfl : (decodedSet dbid regionSet len n rest).decodedAll = false)
      with ⟨-, t, h⟩ | ⟨hle, ⟨e, -, h⟩ | ⟨rs, hw, hn, h⟩⟩
    · rw [h] at hrest
      exact absurd (Prod.mk.inj hrest).1 (by simp)
    · rw [h] at hrest
      exact absurd (Prod.mk.inj hrest).1 (by simp)
    · rw [h] at hrest
      obtain ⟨-, rfl⟩ := Prod.mk.inj hrest
      obtain ⟨relations, scans, rfl, hf, hsec⟩ := words_relationWord.mp hw
      have hle' : len.toNat ≤ rest.length := hle
      have hsec' : rest.take len.toNat = encodeSectionWith scans relations := hsec
      have hlen : (encodeSectionWith scans relations).length = len.toNat := by
        rw [← hsec', List.length_take, Nat.min_eq_left hle']
      have hn' : n = UInt32.ofNat relations.length := by
        rw [← List.length_map (f := Subtype.val)]
        exact hn
      refine ⟨relations, scans, rfl, hf, ?_⟩
      show _ = encodeAround dbid (regionSetOf (participantsOf regionSet)) _ _ ++ rest.drop len.toNat
      rw [regionSetOf_participantsOf, encodeAround_append _ _ _ _ _ (by
        rw [hlen]; exact len.toNat_lt), hlen, UInt32.ofNat_toNat, ← hn', ← hsec',
        List.take_append_drop]

set_option maxRecDepth 2000 in
/-- A table with two tuples and an index, between regions 0 and 5, followed by one byte. -/
theorem decode_encode_exact_two_relations :
    (∃ rwset rwset', RWSet.decode (RWSet.encode 7 33
        [⟨.table 16384 0 12 true 2 [⟨0, 1⟩, ⟨0, 2⟩], rfl⟩, ⟨.index 16385 5 12 1 [⟨3⟩], rfl⟩] ++
          [255]) = .ok rwset ∧
      rwset.decodeRest = (.ok (), rwset') ∧ rwset'.header.dbid = 7 ∧
      rwset'.relations = some
        [.table 16384 0 12 true 2 [⟨0, 1⟩, ⟨0, 2⟩], .index 16385 5 12 1 [⟨3⟩]] ∧
      rwset'.remainder = [255] ∧
      ∀ i, i ∈ rwset'.participants ↔ i < 64 ∧ (33 : UInt64).toNat.testBit i = true) ∧
    ∃ (relations : List CountedRelation) (scans : List UInt8),
      (some [] : Option (List Relation)) = some (relations.map Subtype.val) ∧
      List.Forall₂ (fun scan r => r.val.ScanFits scan) scans relations ∧
      ([0, 0, 0, 1, 0, 0, 0, 0, 0, 0, 0, 3, 0, 0, 0, 0, 0, 0, 0, 0, 9] : Bytes) =
        RWSet.encodeWith scans 1 (regionSetOf (participantsOf 3)) relations ++ [9] :=
  ⟨decode_encode_exact.1 7 33 [⟨.table 16384 0 12 true 2 [⟨0, 1⟩, ⟨0, 2⟩], rfl⟩,
      ⟨.index 16385 5 12 1 [⟨3⟩], rfl⟩] [255] (by decide),
    decode_encode_exact.2 [0, 0, 0, 1, 0, 0, 0, 0, 0, 0, 0, 3, 0, 0, 0, 0, 0, 0, 0, 0, 9]
      (decodedSet 1 3 0 0 [9])
      { decodedSet 1 3 0 0 [9] with relations := some [], decodedAll := true } rfl rfl⟩

end Sunstorm
