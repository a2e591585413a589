import Sunstorm.Xactserver.Proofs.ReplyProofs
import Sunstorm.Xactserver.Server

/-!
# Proofs: the connections of a node

What `process_query` does on one connection, and what holds of all connections and of the channel to
the manager: a transaction that a client hands over has a one-shot channel of its own, it is sent to
the manager once, and the client gets no second reply before it asks again.
-/

namespace Sunstorm

open Await

/-! ## One step of a connection -/

namespace Query

/-- The query has ended. -/
def isOver : Query → Bool
  | returned _ => true
  | panicked _ => true
  | dropped => true
  | _ => false

variable {next : Query} {r : Except String Unit}

theorem orBroken_outstanding (h : next.outstanding = none) :
    (next.orBroken r).outstanding = none := by
  cases r with
  | ok u => exact h
  | error text => rfl

end Query

namespace Front

variable {overflowChecks : Bool} {held : Sender → Bool} {self self' : Front} {i j : Nat}
  {c c' d : Connection}

/-- What a step of `process_query` does on the connection `i`, which is `c`. -/
inductive Processed (overflowChecks : Bool) (self : Front) (i : Nat) (c : Connection) :
    Front → Prop where
  /-- It goes on without a transaction, or ends. -/
  | quiet (query : Query) (hnone : query.outstanding = none)
    (hover : query.isOver = true ∨ c.query.outstanding = none ∧ c.query.isOver = false)
    (hpanic : ∀ f, query = .panicked f → ∃ data commitTx decision,
      c.query = .deciding data commitTx ∧ self.decisions commitTx = some decision ∧
        serializeRollbackInfo overflowChecks decision = .error f) :
    Processed overflowChecks self i c (self.setConnection i { c with query })
  /-- It reads a transaction. -/
  | read (bytes : Bytes) (hquery : c.query = .reading) :
    Processed overflowChecks self i c
      ({ self with issued := self.issued ++ [bytes] }.setConnection i
        { c with query := .sending bytes ⟨self.issued.length⟩, read := c.read ++ [bytes] })
  /-- It sends the transaction to the manager. -/
  | sent (data : Bytes) (commitTx : Sender) (hquery : c.query = .sending data commitTx)
    (hopen : self.stopped = false) (localRx : Channel XsMessage channelCapacity)
    (hsend : self.localRx.send (.localXact data commitTx) = some localRx) :
    Processed overflowChecks self i c
      ({ self with
          localRx
          submitted := self.submitted ++ [(data, commitTx)] }.setConnection i
        { c with query := .deciding data commitTx })
  /-- It gets the decision and writes the reply. -/
  | decided (data : Bytes) (commitTx : Sender) (decision : Option RollbackInfo) (reply : Bytes)
    (hquery : c.query = .deciding data commitTx)
    (hdecision : self.decisions commitTx = some decision)
    (hreply : serializeRollbackInfo overflowChecks decision = .ok reply) :
    Processed overflowChecks self i c
      (self.setConnection i
        { c with
          query := .writing
          exchanges := c.exchanges ++ [{ data, commitTx, decision, reply }] })

/-- Every step of `process_query` is one of these. -/
theorem processed_of_process {x : Io}
    (h : self.process overflowChecks held i c x = some self') :
    Processed overflowChecks self i c self' := by
  unfold process at h
  cases x with
  | opened r =>
    cases hq : c.query with
    | opening =>
      simp only [hq] at h
      obtain rfl := Option.some.inj h
      refine .quiet _ (Query.orBroken_outstanding rfl) (Or.inr (by rw [hq]; exact ⟨rfl, rfl⟩)) ?_
      intro f hf
      cases r <;> exact absurd hf (by simp [Query.orBroken])
    | _ => simp [hq] at h
  | read msg =>
    cases hq : c.query with
    | reading =>
      have hnone : c.query.outstanding = none := by rw [hq]; rfl
      simp only [hq] at h
      cases msg with
      | error text =>
        obtain rfl := Option.some.inj h
        exact .quiet _ rfl (Or.inl rfl) fun f hf => absurd hf (by simp)
      | ok msg =>
        obtain rfl := Option.some.inj h
        cases msg with
        | none => exact .quiet _ rfl (Or.inl rfl) fun f hf => absurd hf (by simp)
        | some m =>
          cases m with
          | copyData bytes => exact .read bytes hq
          | terminate => exact .quiet _ rfl (Or.inl rfl) fun f hf => absurd hf (by simp)
          | other text => exact .quiet _ rfl (Or.inl rfl) fun f hf => absurd hf (by simp)
    | _ => simp [hq] at h
  | sent =>
    cases hq : c.query with
    | sending data commitTx =>
      simp only [hq] at h
      by_cases hstop : self.stopped = true
      · rw [if_pos hstop] at h
        exact absurd h (by simp)
      · rw [if_neg hstop] at h
        obtain ⟨localRx, hsend, rfl⟩ := Option.map_eq_some_iff.mp h
        exact .sent data commitTx hq (Bool.eq_false_of_not_eq_true hstop) localRx hsend
    | _ => simp [hq] at h
  | unsent =>
    cases hq : c.query with
    | sending data commitTx =>
      simp only [hq] at h
      obtain ⟨-, h⟩ := Option.ite_none_right_eq_some.mp h
      obtain rfl := Option.some.inj h
      exact .quiet _ rfl (Or.inl rfl) fun f hf => absurd hf (by simp)
    | _ => simp [hq] at h
  | decided =>
    cases hq : c.query with
    | deciding data commitTx =>
      simp only [hq] at h
      obtain ⟨decision, hdecision, rfl⟩ := Option.map_eq_some_iff.mp h
      unfold decide
      cases hreply : serializeRollbackInfo overflowChecks decision with
      | ok reply => exact .decided data commitTx decision reply hq hdecision hreply
      | error f =>
        refine .quiet _ rfl (Or.inl rfl) fun f' hf => ?_
        obtain rfl := Query.panicked.inj hf
        exact ⟨data, commitTx, decision, hq, hdecision, hreply⟩
    | _ => simp [hq] at h
  | abandoned =>
    cases hq : c.query with
    | deciding data commitTx =>
      simp only [hq] at h
      obtain ⟨-, h⟩ := Option.ite_none_right_eq_some.mp h
      obtain rfl := Option.some.inj h
      exact .quiet _ rfl (Or.inl rfl) fun f hf => absurd hf (by simp)
    | _ => simp [hq] at h
  | replied r =>
    cases hq : c.query with
    | writing =>
      simp only [hq] at h
      obtain rfl := Option.some.inj h
      refine .quiet _ (Query.orBroken_outstanding rfl) (Or.inr (by rw [hq]; exact ⟨rfl, rfl⟩)) ?_
      intro f hf
      cases r <;> exact absurd hf (by simp [Query.orBroken])
    | _ => simp [hq] at h
  | drop =>
    obtain rfl := Option.some.inj h
    exact .quiet _ rfl (Or.inl rfl) fun f hf => absurd hf (by simp)

/-- The connections once `c'` stands in the place of a connection. -/
theorem connection_cases (hc : self.connections[i]? = some c)
    (h : (self.setConnection i c').connections[j]? = some d) :
    j = i ∧ d = c' ∨ j ≠ i ∧ self.connections[j]? = some d := by
  have hlt : i < self.connections.length := (List.getElem?_eq_some_iff.mp hc).1
  unfold setConnection at h
  dsimp only at h
  rw [List.getElem?_set] at h
  by_cases hij : i = j
  · rw [if_pos hij, if_pos hlt] at h
    exact Or.inl ⟨hij.symm, (Option.some.inj h).symm⟩
  · rw [if_neg hij] at h
    exact Or.inr ⟨fun hji => hij hji.symm, h⟩

/-! ## What holds of the connections and of the channel -/

/-- The transaction was read from a client, and the sender was created for it. -/
def Issued (self : Front) (x : Bytes × Sender) : Prop := self.issued[x.2.channel]? = some x.1

/-- The messages that were sent to the manager and not passed on yet, oldest first. -/
def underway (self : Front) : List XsMessage := self.hand.toList ++ self.localRx.messages

theorem Issued.append {x : Bytes × Sender} (h : self.Issued x) {bytes : Bytes}
    (h' : self'.issued = self.issued ++ [bytes]) : self'.Issued x := by
  unfold Issued at h ⊢
  have hlt := (List.getElem?_eq_some_iff.mp h).1
  rw [h', List.getElem?_append_left hlt, h]

theorem Issued.congr {x : Bytes × Sender} (h : self.Issued x)
    (h' : self'.issued = self.issued) : self'.Issued x := by
  unfold Issued at h ⊢
  rw [h', h]

theorem Issued.lt {x : Bytes × Sender} (h : self.Issued x) :
    x.2.channel < self.issued.length := (List.getElem?_eq_some_iff.mp h).1

/-- What was issued with a sender is one transaction. -/
theorem Issued.eq {data data' : Bytes} {commitTx : Sender} (h : self.Issued (data, commitTx))
    (h' : self.Issued (data', commitTx)) : data = data' := Option.some.inj (h.symm.trans h')

end Front

/-- The senders of the transactions that were read on the connection and have a reply or are
outstanding. -/
def Connection.senders (c : Connection) : List Sender :=
  c.exchanges.map Exchange.commitTx ++ (c.query.outstanding.map Prod.snd).toList

/-- A connection without an outstanding transaction keeps the senders that have a reply. -/
theorem Connection.senders_quiet {c : Connection} {query : Query}
    (hnone : query.outstanding = none) :
    List.Sublist ({ c with query } : Connection).senders c.senders := by
  unfold senders
  rw [hnone]
  simp

theorem Connection.senders_decided {c : Connection} {data reply : Bytes} {commitTx : Sender}
    {decision : Option RollbackInfo} (hquery : c.query = .deciding data commitTx) :
    ({ c with
        query := .writing
        exchanges := c.exchanges ++ [{ data, commitTx, decision, reply }] } : Connection).senders =
      c.senders := by
  unfold senders
  rw [hquery]
  simp [Query.outstanding]

theorem Connection.mem_senders_of_outstanding {c : Connection} {x : Bytes × Sender}
    (h : c.query.outstanding = some x) : x.2 ∈ c.senders := by
  unfold senders
  rw [h]
  simp

/-- The client has got a reply to each transaction that it has handed over, but for the last one: that
is outstanding, or was lost with the connection. -/
structure Connection.InStep (c : Connection) : Prop where
  replied : c.exchanges.map Exchange.data ++ (c.query.outstanding.map Prod.fst).toList <+: c.read
  missing : c.read.length ≤ c.exchanges.length + 1
  complete : c.query.isOver = false →
    c.exchanges.map Exchange.data ++ (c.query.outstanding.map Prod.fst).toList = c.read

namespace Connection.InStep

variable {c : Connection}

theorem start : Connection.start.InStep where
  replied := List.prefix_refl _
  missing := Nat.zero_le _
  complete := fun _ => rfl

theorem quiet (h : c.InStep) {query : Query} (hnone : query.outstanding = none)
    (hover : query.isOver = true ∨ c.query.outstanding = none ∧ c.query.isOver = false) :
    ({ c with query } : Connection).InStep where
  replied := by
    have hprefix := (List.prefix_append _ _).trans h.replied
    rw [hnone]
    simpa using hprefix
  missing := h.missing
  complete := by
    intro hopen
    rcases hover with hover | ⟨hsame, hlive⟩
    · exact absurd (hover.symm.trans hopen) (by simp)
    · have hcomplete := h.complete hlive
      rw [hsame] at hcomplete
      rw [hnone]
      exact hcomplete

theorem read (h : c.InStep) (hquery : c.query = .reading) (bytes : Bytes) (commitTx : Sender) :
    ({ c with query := .sending bytes commitTx, read := c.read ++ [bytes] } : Connection).InStep := by
  have hcomplete : c.exchanges.map Exchange.data = c.read := by
    have hall := h.complete (by rw [hquery]; rfl)
    rw [hquery] at hall
    simpa [Query.outstanding] using hall
  constructor
  · rw [hcomplete]
    exact List.prefix_refl _
  · have hlength := congrArg List.length hcomplete
    rw [List.length_map] at hlength
    simp [hlength]
  · intro _
    rw [hcomplete]
    rfl

theorem sent (h : c.InStep) {data : Bytes} {commitTx : Sender}
    (hquery : c.query = .sending data commitTx) :
    ({ c with query := .deciding data commitTx } : Connection).InStep where
  replied := by
    have hreplied := h.replied
    rw [hquery] at hreplied
    exact hreplied
  missing := h.missing
  complete := by
    intro _
    have hcomplete := h.complete (by rw [hquery]; rfl)
    rw [hquery] at hcomplete
    exact hcomplete

theorem decided (h : c.InStep) {data reply : Bytes} {commitTx : Sender}
    {decision : Option RollbackInfo} (hquery : c.query = .deciding data commitTx) :
    ({ c with
        query := .writing
        exchanges := c.exchanges ++ [{ data, commitTx, decision, reply }] } : Connection).InStep := by
  have hcomplete : c.exchanges.map Exchange.data ++ [data] = c.read := by
    have hall := h.complete (by rw [hquery]; rfl)
    rw [hquery] at hall
    exact hall
  constructor
  · simp [Query.outstanding, hcomplete]
  · have hlength := congrArg List.length hcomplete
    rw [List.length_append, List.length_map] at hlength
    simp only [List.length_append, List.length_singleton] at hlength ⊢
    omega
  · intro _
    simpa [Query.outstanding] using hcomplete

end Connection.InStep

namespace Front

variable {overflowChecks : Bool} {self self' : Front} {i j : Nat} {c c' d : Connection}

/-- What holds of one connection of the node. -/
structure Attends (front : Front) (c : Connection) : Prop where
  outstanding : ∀ x ∈ c.query.outstanding, front.Issued x
  /-- What waits to be sent was not sent before. -/
  unsent : ∀ data commitTx, c.query = .sending data commitTx →
    commitTx ∉ front.submitted.map Prod.snd
  exchanges : ∀ x ∈ c.exchanges, front.Issued (x.data, x.commitTx)
  /-- No sender is used twice. -/
  distinct : c.senders.Nodup
  inStep : c.InStep

/-- No two connections use the same sender. -/
def Apart (front : Front) : Prop :=
  ∀ (i j : Nat) (c d : Connection) (commitTx : Sender),
    front.connections[i]? = some c → front.connections[j]? = some d →
    commitTx ∈ c.senders → commitTx ∈ d.senders → i = j

/-- What holds of the connections of a node and of the channels to its manager. -/
structure Sound (front : Front) : Prop where
  attends : ∀ (i : Nat) (c : Connection), front.connections[i]? = some c → front.Attends c
  apart : front.Apart
  issued : ∀ x ∈ front.submitted, front.Issued x
  /-- No transaction is sent to the manager twice. -/
  once : (front.submitted.map Prod.snd).Nodup
  /-- The order is kept, and nothing is lost but what is on the way when the loop is left. -/
  flow : ∃ lost, front.submitted =
    front.passed.map Prod.snd ++ front.underway.filterMap XsMessage.submission ++ lost ∧
      (front.stopped = false → lost = [])
  peers : ∀ m ∈ front.remoteRx.messages, m.submission = none
  locals : ∀ m ∈ front.localRx.messages, m.peer = none

namespace Attends

theorem congr (h : self.Attends c) (hissued : self'.issued = self.issued)
    (hsubmitted : self'.submitted = self.submitted) : self'.Attends c where
  outstanding := fun x hx => (h.outstanding x hx).congr hissued
  unsent := by
    rw [hsubmitted]
    exact h.unsent
  exchanges := fun x hx => (h.exchanges x hx).congr hissued
  distinct := h.distinct
  inStep := h.inStep

/-- The senders of a connection were created for it. -/
theorem lt (h : self.Attends c) {commitTx : Sender} (hmem : commitTx ∈ c.senders) :
    commitTx.channel < self.issued.length := by
  unfold Connection.senders at hmem
  rcases List.mem_append.mp hmem with hmem | hmem
  · obtain ⟨x, hx, rfl⟩ := List.mem_map.mp hmem
    exact (h.exchanges x hx).lt
  · obtain ⟨x, hx, rfl⟩ := Option.map_eq_some_iff.mp (Option.mem_toList.mp hmem)
    exact (h.outstanding x hx).lt

end Attends

/-- Every connection had its senders before. -/
theorem Apart.of_old (h : self.Apart)
    (hold : ∀ (k : Nat) (e : Connection) (commitTx : Sender),
      self'.connections[k]? = some e → commitTx ∈ e.senders →
      ∃ e', self.connections[k]? = some e' ∧ commitTx ∈ e'.senders) : self'.Apart := by
  intro i j c d commitTx hc hd hmc hmd
  obtain ⟨c', hc', hmc'⟩ := hold i c commitTx hc hmc
  obtain ⟨d', hd', hmd'⟩ := hold j d commitTx hd hmd
  exact h i j c' d' commitTx hc' hd' hmc' hmd'

theorem Apart.set (h : self.Apart) (hc : self.connections[i]? = some c)
    (hsenders : c'.senders ⊆ c.senders) : (self.setConnection i c').Apart := by
  refine h.of_old fun k e commitTx hk hmem => ?_
  rcases connection_cases hc hk with ⟨rfl, rfl⟩ | ⟨-, hold⟩
  · exact ⟨c, hc, hsenders hmem⟩
  · exact ⟨e, hold, hmem⟩

namespace Sound

theorem init : Sound Front.init where
  attends := fun i c hc => absurd hc (by simp [Front.init])
  apart := fun i j c d commitTx hc => absurd hc (by simp [Front.init])
  issued := fun x hx => absurd hx List.not_mem_nil
  once := List.nodup_nil
  flow := ⟨[], rfl, fun _ => rfl⟩
  peers := fun m hm => absurd hm List.not_mem_nil
  locals := fun m hm => absurd hm List.not_mem_nil

/-- Only the channels change. -/
theorem channels (h : Sound self) (hconnections : self'.connections = self.connections)
    (hissued : self'.issued = self.issued) (hsubmitted : self'.submitted = self.submitted)
    (hstopped : self'.stopped = self.stopped)
    (hflow : self'.passed.map Prod.snd ++ self'.underway.filterMap XsMessage.submission =
      self.passed.map Prod.snd ++ self.underway.filterMap XsMessage.submission)
    (hpeers : ∀ m ∈ self'.remoteRx.messages, m.submission = none)
    (hlocals : ∀ m ∈ self'.localRx.messages, m.peer = none) : Sound self' where
  attends := by
    intro i c hc
    rw [hconnections] at hc
    exact (h.attends i c hc).congr hissued hsubmitted
  apart := h.apart.of_old fun k e commitTx hk hmem => ⟨e, hconnections ▸ hk, hmem⟩
  issued := by
    rw [hsubmitted]
    exact fun x hx => (h.issued x hx).congr hissued
  once := by
    rw [hsubmitted]
    exact h.once
  flow := by
    rw [hsubmitted, hflow, hstopped]
    exact h.flow
  peers := hpeers
  locals := hlocals

/-- The loop is left. What is in the channels is lost. -/
theorem stop (h : Sound self) (hhand : self.hand = none) :
    Sound { self with
      stopped := true, localRx := Channel.empty, remoteRx := Channel.empty } where
  attends := fun i c hc => (h.attends i c hc).congr rfl rfl
  apart := h.apart.of_old fun k e commitTx hk hmem => ⟨e, hk, hmem⟩
  issued := fun x hx => (h.issued x hx).congr rfl
  once := h.once
  flow := by
    obtain ⟨lost, hflow, -⟩ := h.flow
    refine ⟨self.underway.filterMap XsMessage.submission ++ lost, ?_,
      fun hopen => absurd hopen (by simp)⟩
    have hempty : underway { self with
        stopped := true, localRx := Channel.empty, remoteRx := Channel.empty } = [] := by
      unfold underway
      rw [hhand]
      rfl
    rw [hempty, hflow]
    simp
  peers := fun m hm => absurd hm List.not_mem_nil
  locals := fun m hm => absurd hm List.not_mem_nil

/-- A client connects. -/
theorem connect (h : Sound self) :
    Sound { self with connections := self.connections ++ [.start] } where
  attends := by
    intro i c hc
    rcases List.mem_append.mp (List.mem_of_getElem? hc) with hmem | hmem
    · obtain ⟨j, hj⟩ := List.mem_iff_getElem?.mp hmem
      exact (h.attends j c hj).congr rfl rfl
    · obtain rfl := List.mem_singleton.mp hmem
      constructor
      · exact fun x hx => absurd hx (by simp [Connection.start, Query.outstanding])
      · exact fun data commitTx hq => absurd hq (by simp [Connection.start])
      · exact fun x hx => absurd hx List.not_mem_nil
      · exact List.nodup_nil
      · exact Connection.InStep.start
  apart := by
    refine h.apart.of_old fun k e commitTx hk hmem => ?_
    rcases ite_eq_iff.mp (List.getElem?_append.symm.trans hk) with ⟨-, hk⟩ | ⟨-, hk⟩
    · exact ⟨e, hk, hmem⟩
    · rw [List.mem_singleton.mp (List.mem_of_getElem? hk)] at hmem
      exact absurd hmem List.not_mem_nil
  issued := h.issued
  once := h.once
  flow := h.flow
  peers := h.peers
  locals := h.locals

/-- A connection goes on without a transaction, or ends. -/
theorem quiet (h : Sound self) (hc : self.connections[i]? = some c) {query : Query}
    (hnone : query.outstanding = none)
    (hover : query.isOver = true ∨ c.query.outstanding = none ∧ c.query.isOver = false) :
    Sound (self.setConnection i { c with query }) where
  attends := by
    intro j d hd
    rcases connection_cases hc hd with ⟨rfl, rfl⟩ | ⟨-, hold⟩
    · have hattends := h.attends j c hc
      constructor
      · exact fun x hx => absurd (hnone.symm.trans hx) (by simp)
      · intro data commitTx hq
        rw [show query = _ from hq] at hnone
        exact absurd hnone (by simp [Query.outstanding])
      · exact fun x hx => (hattends.exchanges x hx).congr rfl
      · exact hattends.distinct.sublist (Connection.senders_quiet hnone)
      · exact hattends.inStep.quiet hnone hover
    · exact (h.attends j d hold).congr rfl rfl
  apart := h.apart.set hc (Connection.senders_quiet hnone).subset
  issued := fun x hx => (h.issued x hx).congr rfl
  once := h.once
  flow := h.flow
  peers := h.peers
  locals := h.locals

/-- A connection reads a transaction. -/
theorem read (h : Sound self) (hc : self.connections[i]? = some c) (bytes : Bytes)
    (hquery : c.query = .reading) :
    Sound ({ self with issued := self.issued ++ [bytes] }.setConnection i
      { c with query := .sending bytes ⟨self.issued.length⟩, read := c.read ++ [bytes] }) := by
  have hfresh : ∀ commitTx : Sender, commitTx ∈ self.submitted.map Prod.snd →
      commitTx.channel < self.issued.length := by
    intro commitTx hmem
    obtain ⟨x, hx, rfl⟩ := List.mem_map.mp hmem
    exact (h.issued x hx).lt
  have hc' : ({ self with issued := self.issued ++ [bytes] } : Front).connections[i]? = some c := hc
  have hsenders : ({ c with query := .sending bytes ⟨self.issued.length⟩
                            read := c.read ++ [bytes] } : Connection).senders =
      c.senders ++ [⟨self.issued.length⟩] := by
    unfold Connection.senders
    rw [hquery]
    simp [Query.outstanding]
  constructor
  · intro j d hd
    rcases connection_cases hc' hd with ⟨rfl, rfl⟩ | ⟨-, hold⟩
    · have hattends := h.attends j c hc
      constructor
      · intro x hx
        obtain rfl := Option.some.inj hx
        unfold Issued setConnection
        simp
      · intro data commitTx hq
        obtain ⟨rfl, rfl⟩ := Query.sending.inj hq
        exact fun hmem => absurd (hfresh _ hmem) (Nat.lt_irrefl _)
      · exact fun x hx => (hattends.exchanges x hx).append rfl
      · rw [hsenders]
        refine List.nodup_append.mpr ⟨hattends.distinct, by simp, fun a ha b hb => ?_⟩
        obtain rfl := List.mem_singleton.mp hb
        rintro rfl
        exact absurd (hattends.lt ha) (Nat.lt_irrefl _)
      · exact hattends.inStep.read hquery bytes _
    · have hattends := h.attends j d hold
      exact ⟨fun x hx => (hattends.outstanding x hx).append rfl, hattends.unsent,
        fun x hx => (hattends.exchanges x hx).append rfl, hattends.distinct, hattends.inStep⟩
  · intro k l e f commitTx he hf hme hmf
    -- the new sender is used by no other connection
    have hold : ∀ (m : Nat) (g : Connection),
        ({ self with issued := self.issued ++ [bytes] }.setConnection i
          { c with query := .sending bytes ⟨self.issued.length⟩
                   read := c.read ++ [bytes] }).connections[m]? = some g →
        commitTx ∈ g.senders → m = i ∧ commitTx = ⟨self.issued.length⟩ ∨
          ∃ g', self.connections[m]? = some g' ∧ commitTx ∈ g'.senders := by
      intro m g hg hmem
      rcases connection_cases hc' hg with ⟨rfl, rfl⟩ | ⟨-, hg⟩
      · rw [hsenders] at hmem
        rcases List.mem_append.mp hmem with hmem | hmem
        · exact Or.inr ⟨c, hc, hmem⟩
        · exact Or.inl ⟨rfl, List.mem_singleton.mp hmem⟩
      · exact Or.inr ⟨g, hg, hmem⟩
    rcases hold k e he hme with ⟨rfl, rfl⟩ | ⟨e', he', hme'⟩
    · rcases hold l f hf hmf with ⟨rfl, -⟩ | ⟨f', hf', hmf'⟩
      · rfl
      · exact absurd ((h.attends l f' hf').lt hmf') (Nat.lt_irrefl _)
    · rcases hold l f hf hmf with ⟨-, rfl⟩ | ⟨f', hf', hmf'⟩
      · exact absurd ((h.attends k e' he').lt hme') (Nat.lt_irrefl _)
      · exact h.apart k l e' f' commitTx he' hf' hme' hmf'
  · exact fun x hx => (h.issued x hx).append rfl
  · exact h.once
  · exact h.flow
  · exact h.peers
  · exact h.locals

/-- A connection sends its transaction to the manager. -/
theorem sent (h : Sound self) (hc : self.connections[i]? = some c) {data : Bytes}
    {commitTx : Sender} (hquery : c.query = .sending data commitTx) (hopen : self.stopped = false)
    {localRx : Channel XsMessage channelCapacity}
    (hsend : self.localRx.send (.localXact data commitTx) = some localRx) :
    Sound ({ self with
        localRx
        submitted := self.submitted ++ [(data, commitTx)] }.setConnection i
      { c with query := .deciding data commitTx }) := by
  have hattends := h.attends i c hc
  have hissued : self.Issued (data, commitTx) := hattends.outstanding _ (by rw [hquery]; rfl)
  have hunsent := hattends.unsent data commitTx hquery
  have hsenders : ({ c with query := .deciding data commitTx } : Connection).senders =
      c.senders := by
    unfold Connection.senders
    rw [hquery]
    rfl
  have hmessages := Channel.send_messages hsend
  have hc' : ({ self with
        localRx
        submitted := self.submitted ++ [(data, commitTx)] } : Front).connections[i]? = some c := hc
  constructor
  · intro j d hd
    rcases connection_cases hc' hd with ⟨rfl, rfl⟩ | ⟨hne, hold⟩
    · constructor
      · intro x hx
        obtain rfl := Option.some.inj hx
        exact hissued.congr rfl
      · exact fun data' commitTx' hq => absurd hq (by simp)
      · exact fun x hx => (hattends.exchanges x hx).congr rfl
      · rw [hsenders]
        exact hattends.distinct
      · exact hattends.inStep.sent hquery
    · have hother := h.attends j d hold
      refine ⟨fun x hx => (hother.outstanding x hx).congr rfl, ?_,
        fun x hx => (hother.exchanges x hx).congr rfl, hother.distinct, hother.inStep⟩
      intro data' commitTx' hq hmem
      unfold setConnection at hmem
      rw [List.map_append, List.mem_append] at hmem
      rcases hmem with hmem | hmem
      · exact hother.unsent data' commitTx' hq hmem
      · obtain rfl : commitTx' = commitTx := by simpa using hmem
        have hmem : commitTx' ∈ d.senders :=
          Connection.mem_senders_of_outstanding (show d.query.outstanding = some (data', commitTx') by
            rw [hq]
            rfl)
        have hmem' : commitTx' ∈ c.senders :=
          Connection.mem_senders_of_outstanding (show c.query.outstanding = some (data, commitTx') by
            rw [hquery]
            rfl)
        exact hne (h.apart j i d c commitTx' hold hc hmem hmem')
  · have hapart : ({ self with
        localRx
        submitted := self.submitted ++ [(data, commitTx)] } : Front).Apart := h.apart
    exact hapart.set hc' (by rw [hsenders]; exact List.Subset.refl _)
  · intro x hx
    unfold setConnection at hx
    rcases List.mem_append.mp hx with hx | hx
    · exact (h.issued x hx).congr rfl
    · obtain rfl := List.mem_singleton.mp hx
      exact hissued.congr rfl
  · unfold setConnection
    rw [List.map_append]
    refine List.nodup_append.mpr ⟨h.once, by simp, ?_⟩
    intro a ha b hb
    obtain rfl : b = commitTx := by simpa using hb
    exact fun heq => hunsent (heq ▸ ha)
  · obtain ⟨lost, hflow, hlost⟩ := h.flow
    obtain rfl := hlost hopen
    refine ⟨[], ?_, fun _ => rfl⟩
    unfold setConnection underway
    dsimp only
    unfold underway at hflow
    rw [hmessages, hflow]
    simp [XsMessage.submission]
  · exact h.peers
  · intro m hm
    unfold setConnection at hm
    dsimp only at hm
    rw [hmessages, List.mem_append, List.mem_singleton] at hm
    rcases hm with hm | rfl
    · exact h.locals m hm
    · rfl

/-- A connection gets a decision. -/
theorem decided (h : Sound self) (hc : self.connections[i]? = some c) {data reply : Bytes}
    {commitTx : Sender} {decision : Option RollbackInfo}
    (hquery : c.query = .deciding data commitTx) :
    Sound (self.setConnection i
      { c with
        query := .writing
        exchanges := c.exchanges ++ [{ data, commitTx, decision, reply }] }) where
  attends := by
    intro j d hd
    rcases connection_cases hc hd with ⟨rfl, rfl⟩ | ⟨-, hold⟩
    · have hattends := h.attends j c hc
      constructor
      · exact fun x hx => absurd hx (by simp [Query.outstanding])
      · exact fun data' commitTx' hq => absurd hq (by simp)
      · intro x hx
        rcases List.mem_append.mp hx with hx | hx
        · exact (hattends.exchanges x hx).congr rfl
        · obtain rfl := List.mem_singleton.mp hx
          have hissued := hattends.outstanding (data, commitTx) (by rw [hquery]; rfl)
          exact hissued.congr rfl
      · rw [Connection.senders_decided hquery]
        exact hattends.distinct
      · exact hattends.inStep.decided hquery
    · exact (h.attends j d hold).congr rfl rfl
  apart := h.apart.set hc (by
    rw [Connection.senders_decided hquery]
    exact List.Subset.refl _)
  issued := fun x hx => (h.issued x hx).congr rfl
  once := h.once
  flow := h.flow
  peers := h.peers
  locals := h.locals

/-- One step of a connection. -/
theorem processed (h : Sound self) (hc : self.connections[i]? = some c)
    (hp : Processed overflowChecks self i c self') : Sound self' := by
  cases hp with
  | quiet query hnone hover hpanic => exact h.quiet hc hnone hover
  | read bytes hquery => exact h.read hc bytes hquery
  | sent data commitTx hquery hopen localRx hsend => exact h.sent hc hquery hopen hsend
  | decided data commitTx decision reply hquery hdecision hreply => exact h.decided hc hquery

end Sound

end Front

end Sunstorm
