import Sunstorm.Codec.Proofs.ReaderProofs
import Sunstorm.Xactserver.Calls
import Sunstorm.Xactserver.Reply
import Sunstorm.Xactserver.Proofs.DecoderProofs
import Sunstorm.Xactserver.Proofs.ManagerProofs
import Sunstorm.Xactserver.Proofs.SessionProofs

/-!
# Proofs: the reply to PostgreSQL

The node of a reply is one of the participants, so the byte for it has room; and the reader reads
exactly what is written for a plain reply, so that the bytes tell the reply and where it ends.
-/

namespace Sunstorm

open Await Codec Tally

/-! ## What the reader reads -/

theorem asBytes_ofBytes (s : String) : String.fromUTF8? ⟨(asBytes s).toArray⟩ = some s :=
  fromUTF8?_toUTF8 s

theorem ofBytes_asBytes {bs : Bytes} {s : String} (h : String.fromUTF8? ⟨bs.toArray⟩ = some s) :
    asBytes s = bs := by
  unfold String.fromUTF8? at h
  by_cases hvalid : (⟨bs.toArray⟩ : ByteArray).IsValidUTF8
  · rw [dif_pos hvalid] at h
    rw [← Option.some.inj h]
    rfl
  · rw [dif_neg hvalid] at h
    exact absurd h (by simp)

theorem toBe_one (x : UInt8) : toBe 1 x.toNat = [x] := by simp [toBe]

theorem reads_byte : Reads getU8 (fun x w => w = [x]) :=
  reads_getU8.congr fun x w => by rw [toBe_one]

namespace Reply

theorem reads_readText : Reads readText (fun s w => 0 ∉ asBytes s ∧ w = asBytes s ++ [0]) := by
  refine ((reads_upTo malformed 0).through malformed _).congr fun s w => ?_
  constructor
  · rintro ⟨bs, hs, hzero, rfl⟩
    rw [ofBytes_asBytes hs]
    exact ⟨hzero, rfl⟩
  · rintro ⟨hzero, rfl⟩
    exact ⟨asBytes s, asBytes_ofBytes s, hzero, rfl⟩

theorem reads_readByte (b : UInt8) : Reads (readByte b) (fun _ w => w = [b]) := by
  unfold readByte
  have hcheck : ∀ x : UInt8, Reads (if x = b then (return ()) else Reader.fail malformed : Decode Unit)
      (fun _ w => x = b ∧ w = []) := by
    intro x
    by_cases hx : x = b
    · rw [if_pos hx]
      exact (reads_pure ()).congr fun _ w => by simp [hx]
    · rw [if_neg hx]
      exact (reads_fail malformed).congr fun _ w => by simp [hx]
  refine (reads_byte.bind hcheck).congr fun _ w => ?_
  constructor
  · rintro ⟨x, u, v, rfl, ⟨rfl, rfl⟩, rfl⟩
    rfl
  · rintro rfl
    exact ⟨b, [b], [], rfl, ⟨rfl, rfl⟩, rfl⟩

/-- The bytes that follow the message in an error of PostgreSQL. -/
def sqlErrorBytes (err : DbError) : Bytes :=
  err.code ++ (asBytes err.severity ++ [0] ++ (asBytes err.detail ++ [0] ++
    (asBytes err.hint ++ [0] ++ [0])))

theorem reads_readSqlError (message : String) :
    Reads (readSqlError message) (fun reason w => ∃ err : DbError, reason = .db err ∧
      err.message = message ∧ err.code.length = 5 ∧ 0 ∉ asBytes err.severity ∧
      0 ∉ asBytes err.detail ∧ 0 ∉ asBytes err.hint ∧ w = sqlErrorBytes err) := by
  unfold readSqlError
  refine ((reads_exactly malformed 5).bind fun code => reads_readText.bind fun severity =>
    reads_readText.bind fun detail => reads_readText.bind fun hint => (reads_readByte 0).bind
      fun _ => reads_pure _).congr fun reason w => ?_
  constructor
  · rintro ⟨_, code, _, ⟨hcode, rfl⟩, ⟨severity, _, _, ⟨hseverity, rfl⟩, ⟨detail, _, _,
      ⟨hdetail, rfl⟩, ⟨hint, _, _, ⟨hhint, rfl⟩, ⟨_, _, _, rfl, ⟨rfl, rfl⟩, rfl⟩, rfl⟩, rfl⟩,
      rfl⟩, rfl⟩
    exact ⟨⟨code, severity, message, detail, hint⟩, rfl, rfl, hcode, hseverity, hdetail, hhint, rfl⟩
  · rintro ⟨err, rfl, rfl, hcode, hseverity, hdetail, hhint, rfl⟩
    exact ⟨_, _, _, ⟨hcode, rfl⟩, ⟨_, _, _, ⟨hseverity, rfl⟩, ⟨_, _, _, ⟨hdetail, rfl⟩,
      ⟨_, _, _, ⟨hhint, rfl⟩, ⟨(), _, _, rfl, ⟨rfl, rfl⟩, rfl⟩, rfl⟩, rfl⟩, rfl⟩, rfl⟩

/-- The bytes that follow the node. -/
def reasonBytes : RollbackReason → Bytes
  | .db err => asBytes err.message ++ [0] ++ ([1] ++ sqlErrorBytes err)
  | .other err => asBytes err ++ [0] ++ [0]

theorem reads_readReason :
    Reads readReason (fun reason w => PlainReason reason ∧ w = reasonBytes reason) := by
  unfold readReason
  have hmarker : ∀ (message : String) (marker : UInt8),
      Reads (if marker = 0 then return RollbackReason.other message
        else if marker = 1 then readSqlError message else Reader.fail malformed : Decode _)
      (fun reason w => (marker = 0 ∧ reason = .other message ∧ w = []) ∨
        (marker = 1 ∧ ∃ err : DbError, reason = .db err ∧ err.message = message ∧
          err.code.length = 5 ∧ 0 ∉ asBytes err.severity ∧ 0 ∉ asBytes err.detail ∧
          0 ∉ asBytes err.hint ∧ w = sqlErrorBytes err)) := by
    intro message marker
    by_cases h0 : marker = 0
    · rw [if_pos h0]
      exact (reads_pure _).congr fun reason w => by simp [h0]
    · rw [if_neg h0]
      by_cases h1 : marker = 1
      · rw [if_pos h1]
        exact (reads_readSqlError message).congr fun reason w => by simp [h1]
      · rw [if_neg h1]
        exact (reads_fail malformed).congr fun reason w => by simp [h0, h1]
  refine (reads_readText.bind fun message => reads_byte.bind (hmarker message)).congr
    fun reason w => ?_
  constructor
  · rintro ⟨message, _, _, ⟨hmessage, rfl⟩, ⟨marker, _, _, rfl, ⟨rfl, rfl, rfl⟩ |
      ⟨rfl, err, rfl, rfl, hcode, hseverity, hdetail, hhint, rfl⟩, rfl⟩, rfl⟩
    · exact ⟨hmessage, rfl⟩
    · exact ⟨⟨hcode, hmessage, hseverity, hdetail, hhint⟩, rfl⟩
  · rintro ⟨hplain, rfl⟩
    cases reason with
    | db err =>
      obtain ⟨hcode, hmessage, hseverity, hdetail, hhint⟩ := hplain
      exact ⟨_, _, _, ⟨hmessage, rfl⟩, ⟨_, _, _, rfl, Or.inr
        ⟨rfl, err, rfl, rfl, hcode, hseverity, hdetail, hhint, rfl⟩, rfl⟩, rfl⟩
    | other err => exact ⟨_, _, _, ⟨hplain, rfl⟩, ⟨_, _, _, rfl, Or.inl ⟨rfl, rfl, rfl⟩, rfl⟩, rfl⟩

theorem serialize_some (overflowChecks : Bool) (info : RollbackInfo) :
    serializeRollbackInfo overflowChecks (some info) =
      (replyNode overflowChecks info.node).map fun node => node :: reasonBytes info.reason := by
  obtain ⟨node, reason⟩ := info
  cases reason with
  | db err =>
    simp only [serializeRollbackInfo]
    cases replyNode overflowChecks node with
    | error e => rfl
    | ok b => simp [Except.map, reasonBytes, sqlErrorBytes, bind, Except.bind, pure, Except.pure]
  | other err =>
    simp only [serializeRollbackInfo]
    cases replyNode overflowChecks node with
    | error e => rfl
    | ok b => simp [Except.map, reasonBytes, bind, Except.bind, pure, Except.pure]

/-- The byte of a node that has one. -/
theorem replyNode_of_lt {overflowChecks : Bool} {node : NodeId} (h : node.toUsize < 255) :
    replyNode overflowChecks node = .ok (UInt8.ofNat (node.toUsize + 1)) := by
  have hlt : node.val.toNat < 255 := h
  have hsucc : (node.val + 1).toNat = node.toUsize + 1 := by
    have hadd : (node.val + 1).toNat = (node.val.toNat + 1) % 4294967296 :=
      UInt32.toNat_add node.val 1
    rw [hadd]
    exact Nat.mod_eq_of_lt (by omega)
  have hmax : node.val ≠ 0xffffffff := by
    intro heq
    rw [heq] at hlt
    exact absurd hlt (by decide)
  unfold replyNode
  rw [if_neg fun hover => hmax hover.2, hsucc, if_pos (by omega)]

/-- When overflow is checked, only these nodes have a byte. -/
theorem replyNode_lt {node : NodeId} {b : UInt8} (h : replyNode true node = .ok b) :
    node.toUsize < 255 := by
  have hnode : node.val.toNat < 4294967296 := node.val.toNat_lt
  have hadd : (node.val + 1).toNat = (node.val.toNat + 1) % 4294967296 :=
    UInt32.toNat_add node.val 1
  unfold replyNode at h
  by_cases hmax : node.val = 0xffffffff
  · rw [if_pos ⟨rfl, hmax⟩] at h
    exact absurd h (by simp)
  · have hne : node.val.toNat ≠ 4294967295 := fun heq => hmax (UInt32.toNat.inj heq)
    rw [if_neg fun hover => hmax hover.2] at h
    by_cases hfit : (node.val + 1).toNat < 256
    · show node.val.toNat < 255
      omega
    · rw [if_neg hfit] at h
      exact absurd h (by simp)

/-- The node that a byte stands for. -/
theorem replyNode_eq_ok {node : NodeId} {b : UInt8} :
    replyNode true node = .ok b ↔ b ≠ 0 ∧ node = ⟨b.toUInt32 - 1⟩ := by
  have hb := b.toNat_lt
  constructor
  · intro h
    have hlt := replyNode_lt h
    rw [replyNode_of_lt hlt] at h
    have hbn : b.toNat = node.val.toNat + 1 := by
      rw [← Except.ok.inj h, UInt8.toNat_ofNat']
      exact Nat.mod_eq_of_lt (by omega)
    constructor
    · rintro rfl
      exact absurd hbn (by simp)
    · obtain ⟨n⟩ := node
      refine congrArg NodeId.mk (UInt32.toNat.inj ?_)
      rw [UInt32.toNat_sub_of_le _ _ (by rw [UInt32.le_iff_toNat_le]; simp [hbn])]
      simp [hbn]
  · rintro ⟨hzero, rfl⟩
    have hpos : 0 < b.toNat := Nat.pos_of_ne_zero fun heq => hzero (UInt8.toNat.inj heq)
    have hval : (b.toUInt32 - 1).toNat = b.toNat - 1 := by
      rw [UInt32.toNat_sub_of_le _ _ (by
        rw [UInt32.le_iff_toNat_le]
        simpa using Nat.succ_le_of_lt hpos)]
      simp
    have husize : NodeId.toUsize ⟨b.toUInt32 - 1⟩ = b.toNat - 1 := hval
    rw [replyNode_of_lt (by omega), husize, Nat.sub_add_cancel hpos, UInt8.ofNat_toNat]

/-- The reader reads exactly the plain replies, as they are written when overflow is checked. -/
theorem reads_read :
    Reads read (fun reply w => Plain reply ∧ serializeRollbackInfo true reply = .ok w) := by
  unfold read
  have hrest : ∀ first : UInt8, Reads (if first = 0 then return none
        else do
          let reason ← readReason
          return some ⟨⟨first.toUInt32 - 1⟩, reason⟩ : Decode (Option RollbackInfo))
      (fun reply w => (first = 0 ∧ reply = none ∧ w = []) ∨
        (first ≠ 0 ∧ ∃ reason, PlainReason reason ∧ reply = some ⟨⟨first.toUInt32 - 1⟩, reason⟩ ∧
          w = reasonBytes reason)) := by
    intro first
    by_cases h0 : first = 0
    · rw [if_pos h0]
      exact (reads_pure _).congr fun reply w => by simp [h0]
    · rw [if_neg h0]
      refine (reads_readReason.bind fun reason => reads_pure _).congr fun reply w => ?_
      constructor
      · rintro ⟨reason, _, _, ⟨hplain, rfl⟩, ⟨rfl, rfl⟩, rfl⟩
        exact Or.inr ⟨h0, reason, hplain, rfl, List.append_nil _⟩
      · rintro (⟨hzero, -⟩ | ⟨-, reason, hplain, rfl, rfl⟩)
        · exact absurd hzero h0
        · exact ⟨reason, _, [], ⟨hplain, rfl⟩, ⟨rfl, rfl⟩, (List.append_nil _).symm⟩
  refine (reads_byte.bind hrest).congr fun reply w => ?_
  constructor
  · rintro ⟨first, _, _, rfl, ⟨rfl, rfl, rfl⟩ | ⟨h0, reason, hplain, rfl, rfl⟩, rfl⟩
    · exact ⟨by simp [Plain], rfl⟩
    · refine ⟨by simpa [Plain] using hplain, ?_⟩
      rw [serialize_some, replyNode_eq_ok.mpr ⟨h0, rfl⟩]
      rfl
  · rintro ⟨hplain, hw⟩
    cases reply with
    | none =>
      obtain rfl := Except.ok.inj hw
      exact ⟨0, [0], [], rfl, Or.inl ⟨rfl, rfl, rfl⟩, rfl⟩
    | some info =>
      rw [serialize_some] at hw
      cases hnode : replyNode true info.node with
      | error e =>
        rw [hnode] at hw
        exact absurd hw (by simp [Except.map])
      | ok b =>
        rw [hnode] at hw
        obtain rfl := Except.ok.inj hw
        obtain ⟨h0, hb⟩ := replyNode_eq_ok.mp hnode
        refine ⟨b, [b], _, rfl, Or.inr ⟨h0, info.reason, hplain info rfl, ?_, rfl⟩, rfl⟩
        rw [← hb]

theorem decode_append {reply : Option RollbackInfo} (hplain : Plain reply) {w : Bytes}
    (hw : serializeRollbackInfo true reply = .ok w) (rest : Bytes) :
    decode (w ++ rest) = some (reply, w.length) := by
  have hread := (reads_read (w ++ rest) reply rest).mpr ⟨w, ⟨hplain, hw⟩, rfl⟩
  unfold decode
  rw [hread]
  simp

/-- A reply about a participant is written, and the same bytes whether overflow is checked or
not. -/
theorem serialize_of_numbered {reply : Option RollbackInfo} (h : Numbered reply) :
    ∃ w, ∀ overflowChecks, serializeRollbackInfo overflowChecks reply = .ok w := by
  cases reply with
  | none => exact ⟨[0], fun _ => rfl⟩
  | some info =>
    have hlt : info.node.toUsize < 255 := Nat.lt_trans (h info rfl) (by decide)
    refine ⟨UInt8.ofNat (info.node.toUsize + 1) :: reasonBytes info.reason, fun overflowChecks => ?_⟩
    rw [serialize_some, replyNode_of_lt hlt]
    rfl

end Reply

/-! ## What the coordinator sends -/

/-- A reply that rolls back names the voter that the ballot is lost to. -/
theorem Opening.closing_reply {id : XactId} {o : Opening} {d : Decision Nat RollbackReason}
    {e : Effect} (h : o.closing id d = some e) {info : RollbackInfo}
    (hreply : e.reply = some (some info)) :
    ∃ i reason, d = .rollback i reason ∧ info = ⟨NodeId.ofUsize i, reason⟩ := by
  cases o with
  | coordinator data tx =>
    cases d with
    | waiting => exact absurd h (by simp [Opening.closing, XactState.closing])
    | commit =>
      obtain rfl := Option.some.inj h
      exact absurd hreply (by simp [Effect.reply])
    | rollback i reason =>
      obtain rfl := Option.some.inj h
      exact ⟨i, reason, rfl, (Option.some.inj (Option.some.inj hreply)).symm⟩
  | surrogate msg r =>
    cases d with
    | waiting => exact absurd h (by simp [Opening.closing, XactState.closing])
    | commit =>
      obtain rfl := Option.some.inj h
      exact absurd hreply (by simp [Effect.reply])
    | rollback i reason =>
      obtain rfl := Option.some.inj h
      exact absurd hreply (by simp [Effect.reply])

/-- Every reply that a state manager sends is about a participant. -/
theorem reply_numbered {id : XactId} {n : NodeId} {p : XactProc}
    (hp : Proc.Reach XactStateManager.handle (XsMessage.Foreign n) (XactStateManager.new id n) p)
    {e : Effect} (he : e ∈ calls p.log) {reply : Option RollbackInfo}
    (hreply : e.reply = some reply) : Reply.Numbered reply := by
  rintro info rfl
  rcases (stage_of_reach hp).announced_or with hun | ⟨S, late, closing, hseen⟩
  · obtain ⟨data, rfl⟩ := hun.effects e he
    exact absurd hreply (by simp [Effect.reply])
  · rw [hseen.effects, List.mem_append, List.mem_append, List.mem_singleton] at he
    rcases he with (he | rfl) | he
    · cases ho : S.opening with
      | coordinator data tx =>
        rw [ho] at he
        exact absurd he (by simp [Opening.executed])
      | surrogate msg r =>
        rw [ho] at he
        have hexec : e = .execute id msg.data := by simpa [Opening.executed] using he
        rw [hexec] at hreply
        exact absurd hreply (by simp [Effect.reply])
    · exact absurd hreply (by simp [Session.broadcast, Effect.reply])
    · rcases hseen.ends with rfl | ⟨e', he', rfl⟩
      · exact absurd he List.not_mem_nil
      · obtain rfl := List.mem_singleton.mp he
        obtain ⟨i, reason, hd, rfl⟩ := Opening.closing_reply he' hreply
        have hlt := S.participants_lt (no_of_rollback hd).1
        rw [toUsize_ofUsize hlt]
        exact hlt

/-- **The reply is always written, and can be read back.** What a coordinator sends to its client is
about a participant, whatever comes in. A reply about a participant is written without a panic; and
when its texts hold no NUL byte and the code of an error has five bytes, then one reader finds the
reply and its length in front of any other bytes. -/
theorem reply_unambiguous :
    (∀ (id : XactId) (n : NodeId) (p : XactProc),
      Proc.Reach XactStateManager.handle (XsMessage.Foreign n) (XactStateManager.new id n) p →
      ∀ e ∈ calls p.log, ∀ reply, e.reply = some reply → Reply.Numbered reply) ∧
    ∀ reply, Reply.Numbered reply →
      ∃ w, (∀ overflowChecks, serializeRollbackInfo overflowChecks reply = .ok w) ∧
        (Reply.Plain reply → ∀ rest, Reply.decode (w ++ rest) = some (reply, w.length)) := by
  constructor
  · intro id n p hp e he reply hreply
    exact reply_numbered hp he hreply
  · intro reply hnumbered
    obtain ⟨w, hw⟩ := Reply.serialize_of_numbered hnumbered
    exact ⟨w, hw, fun hplain rest => Reply.decode_append hplain (hw true) rest⟩

/-- A deadlock as PostgreSQL reports it. -/
def deadlockError : DbError :=
  { code := [52, 48, 80, 48, 49], severity := "ERROR", message := "deadlock detected", detail := "",
    hint := "" }

/-- A transaction of the nodes 0 and 1 that node 1 votes against, with a deadlock. -/
def deadlockRun : List (Proc.Act XsMessage Answer) :=
  [.post (.localXact [0, 0, 0, 1, 0, 0, 0, 0, 0, 0, 0, 3, 0, 0, 0, 0, 0, 0, 0, 0] ⟨7⟩), .take,
    .answer (.ok ()),
    .post (.vote { «from» := 1, xactId := 0, rollbackReason := some (.db deadlockError) }), .take]

theorem deadlockRun_reply :
    ∃ p, (Proc.start (XactStateManager.new ⟨0⟩ ⟨0⟩)).run XactStateManager.handle deadlockRun = some p ∧
      Effect.replyRollback (some ⟨7⟩) ⟨⟨1⟩, .db deadlockError⟩ ∈ calls p.log := by
  have hrun : ((Proc.start (XactStateManager.new ⟨0⟩ ⟨0⟩)).run XactStateManager.handle
      deadlockRun).map (fun p => decide
        (Effect.replyRollback (some ⟨7⟩) ⟨⟨1⟩, .db deadlockError⟩ ∈ calls p.log)) = some true := by
    decide
  obtain ⟨p, hp, hmem⟩ := Option.map_eq_some_iff.mp hrun
  exact ⟨p, hp, of_decide_eq_true hmem⟩

theorem reply_unambiguous_deadlock :
    Reply.Numbered (some ⟨⟨1⟩, .db deadlockError⟩) ∧
      ∃ w, (∀ overflowChecks, serializeRollbackInfo overflowChecks
          (some ⟨⟨1⟩, .db deadlockError⟩) = .ok w) ∧
        (Reply.Plain (some ⟨⟨1⟩, .db deadlockError⟩) → ∀ rest,
          Reply.decode (w ++ rest) = some (some ⟨⟨1⟩, .db deadlockError⟩, w.length)) := by
  obtain ⟨p, hp, hmem⟩ := deadlockRun_reply
  have hreach := Proc.reach_of_run (.start : Proc.Reach _ (XsMessage.Foreign ⟨0⟩) _ _) (by
    intro m hm
    simp only [deadlockRun, List.mem_cons, Proc.Act.post.injEq, reduceCtorEq, List.not_mem_nil,
      or_false, false_or] at hm
    rcases hm with rfl | rfl <;> trivial) hp
  have hnumbered := reply_unambiguous.1 ⟨0⟩ ⟨0⟩ p hreach _ hmem _ rfl
  exact ⟨hnumbered, reply_unambiguous.2 _ hnumbered⟩

/-- The reply to that client is plain. -/
example : Reply.Plain (some ⟨⟨1⟩, .db deadlockError⟩) := by
  rintro info ⟨⟩
  decide

end Sunstorm
