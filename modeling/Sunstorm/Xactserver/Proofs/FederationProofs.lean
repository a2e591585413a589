import Sunstorm.Postgres.Proofs.FrameProofs
import Sunstorm.Xactserver.Federation
import Sunstorm.Xactserver.Proofs.HonestProofs
import Sunstorm.Xactserver.Proofs.StatementProofs

/-!
# Proofs: every database follows the state managers of its node

The state managers of a node share its database, but each of them concerns a transaction of its own.
So each one sees the database as a surrogate in front of PostgreSQL does, whatever the others do.
-/

namespace Sunstorm

open Await Postgres

namespace Cluster

variable {st st' : Cluster} {k n : NodeId} {x y : XactId} {a : Action}

/-- The action is a step of the state manager of `y` at `k`. -/
def Action.Owns (k : NodeId) (y : XactId) : Action → Prop
  | .take n x => n = k ∧ x = y
  | .answer n x _ => n = k ∧ x = y
  | .stop n x => n = k ∧ x = y
  | _ => False

theorem Own.owns_iff {p p' : XactProc} (h : st.Own n x p p' a) :
    a.Owns k y ↔ k = n ∧ y = x := by
  rcases h with ⟨rfl, -⟩ | ⟨r, rfl, -, -⟩ | ⟨rfl, -⟩ <;>
    exact ⟨fun h => ⟨h.1.symm, h.2.symm⟩, fun h => ⟨h.1.symm, h.2.symm⟩⟩

/-- A message that comes for the state manager of `y` at `k`: a transaction of the node itself, or a
request that went out. -/
def Comes (st : Cluster) (k : NodeId) (y : XactId) (m : XsMessage) : Prop :=
  (∃ data tx, m = .localXact data tx ∧ y.nodeId = k) ∨
    ∃ msg, m = XsMessage.ofPeer msg ∧ (k, msg) ∈ st.sent

/-- A step of another state manager leaves this one as it is, but for a message that may come. -/
theorem Change.passive (h : Change st st' a) (hown : ¬ a.Owns k y) :
    st'.proc k y = st.proc k y ∨ ∃ m, st.Comes k y m ∧ st'.proc k y = some (st.posted k y m) := by
  cases h with
  | client n data tx procs sent delivered assigned counter =>
    rw [procs]
    by_cases hk : k = n ∧ y = st.nextId n
    · obtain ⟨rfl, rfl⟩ := hk
      exact Or.inr ⟨_, Or.inl ⟨data, tx, rfl, nextId_nodeId⟩, procsWith_self⟩
    · exact Or.inl (procsWith_other hk)
  | deliver n msg mem procs sent delivered assigned counter =>
    rw [procs]
    by_cases hk : k = n ∧ y = msg.xactId
    · obtain ⟨rfl, rfl⟩ := hk
      exact Or.inr ⟨_, Or.inr ⟨msg, rfl, mem⟩, procsWith_self⟩
    · exact Or.inl (procsWith_other hk)
  | emit n id envelope mem procs sent delivered assigned counter => exact Or.inl (by rw [procs])
  | own a n id p p' hp ha procs sent delivered assigned counter =>
    rw [procs]
    exact Or.inl (procsWith_other fun hk => hown (ha.owns_iff.mpr hk))

/-- A step of the state manager itself. -/
theorem Change.active (h : Change st st' a) (hown : a.Owns k y) :
    ∃ p p', st.proc k y = some p ∧ st'.proc k y = some p' ∧ st.Own k y p p' a := by
  cases h with
  | client n data tx => exact hown.elim
  | deliver n msg => exact hown.elim
  | emit n id envelope => exact hown.elim
  | own a n id p p' hp ha procs sent delivered assigned counter =>
    obtain ⟨rfl, rfl⟩ := ha.owns_iff.mp hown
    exact ⟨p, p', hp, by rw [procs]; exact procsWith_self, ha⟩

end Cluster

namespace Federation

variable {w w' : Federation} {k n : NodeId} {id x y : XactId} {p p' : XactProc} {txn : Txn}

@[simp] theorem put_self {α : Type} {f : NodeId → XactId → α} {a : α} : put f n x a n x = a :=
  if_pos ⟨rfl, rfl⟩

theorem put_other {α : Type} {f : NodeId → XactId → α} {a : α} (h : ¬ (k = n ∧ y = x)) :
    put f n x a k y = f k y := if_neg h

/-! ## One step -/

/-- What one step does: a step of the cluster, whose answer to what was asked of PostgreSQL is that
of the statements, or a statement. -/
inductive Moved (w w' : Federation) : Prop where
  | cluster (a : Cluster.Action) (c : Cluster) (txn : Txn) (hc : w.cluster.step a = some c)
    (hanswer : ∀ n x r, a = .answer n x r →
      w.sql n x = none ∨ w.sql n x = some (.done (r, ())))
    (h : w' = ({ w with cluster := c } : Federation).follow txn a)
  | statement (n : NodeId) (x : XactId) (u : Unit) (stmt : Sql) (next : SqlReply → SqlTask)
    (o : Fate AnyhowError) (r : SqlReply) (db : Db String)
    (hsql : w.sql n x = some (.await u stmt next))
    (hexec : (w.db n x).exec stmt o = some (r, db))
    (h : w' = ({ w with history := Function.update w.history n db.history } : Federation).withSql
      n x (some (next r)) db.txn)

theorem moved_of_step {a : Act} (h : w.step a = some w') : Moved w w' := by
  cases a with
  | cluster a txn =>
    obtain ⟨hfree, h⟩ := Option.ite_none_right_eq_some.mp h
    obtain ⟨c, hc, rfl⟩ := Option.map_eq_some_iff.mp h
    refine .cluster a c txn hc (fun n x r ha => ?_) rfl
    subst ha
    exact Or.inl hfree
  | statement n x o =>
    unfold step at h
    dsimp only at h
    cases hsql : w.sql n x with
    | none =>
      rw [hsql] at h
      exact absurd h (by simp)
    | some prog =>
      cases prog with
      | done a =>
        rw [hsql] at h
        exact absurd h (by simp)
      | await u stmt next =>
        rw [hsql] at h
        obtain ⟨⟨r, db⟩, hexec, rfl⟩ := Option.map_eq_some_iff.mp h
        exact .statement n x u stmt next o r db hsql hexec rfl
  | finish n x txn =>
    unfold step at h
    dsimp only at h
    cases hsql : w.sql n x with
    | none =>
      rw [hsql] at h
      exact absurd h (by simp)
    | some prog =>
      cases prog with
      | await u stmt next =>
        rw [hsql] at h
        exact absurd h (by simp)
      | done a =>
        obtain ⟨r, u⟩ := a
        rw [hsql] at h
        obtain ⟨c, hc, rfl⟩ := Option.map_eq_some_iff.mp h
        refine .cluster (.answer n x r) c txn hc (fun n' x' r' ha => ?_) rfl
        obtain ⟨rfl, rfl, rfl⟩ := Cluster.Action.answer.inj ha
        exact Or.inr hsql

theorem follow_history {a : Cluster.Action} : (w.follow txn a).history = w.history := by
  cases a <;> rfl

theorem follow_cluster {a : Cluster.Action} : (w.follow txn a).cluster = w.cluster := by
  cases a <;> rfl

/-- A step of another state manager leaves the statements of this one as they are. -/
theorem follow_other {a : Cluster.Action} (h : ¬ a.Owns k y) :
    (w.follow txn a).sql k y = w.sql k y ∧ (w.follow txn a).txn k y = w.txn k y := by
  have hput : ∀ n x, ¬ (n = k ∧ x = y) → ¬ (k = n ∧ y = x) :=
    fun n x hne hk => hne ⟨hk.1.symm, hk.2.symm⟩
  cases a with
  | client n data tx => exact ⟨rfl, rfl⟩
  | deliver n msg => exact ⟨rfl, rfl⟩
  | emit n x envelope => exact ⟨rfl, rfl⟩
  | take n x => exact ⟨put_other (hput n x h), put_other (hput n x h)⟩
  | answer n x r => exact ⟨put_other (hput n x h), put_other (hput n x h)⟩
  | stop n x => exact ⟨put_other (hput n x h), put_other (hput n x h)⟩

/-- What a state manager awaits is begun when it goes on. -/
theorem awaited_sql {c : Cluster} (hp : c.proc n x = some p) (db : Db String) :
    (c.awaited n x).bind Effect.sql = (Site.resume p db).sql := by
  unfold Cluster.awaited Site.resume
  rw [hp]
  obtain ⟨inbox, task, log⟩ := p
  cases task <;> rfl

/-- A state manager goes on with what it awaits, and with nothing when it has ended. -/
theorem follow_own {st : Cluster} {a : Cluster.Action} (ha : st.Own k y p p' a)
    (hp' : w.cluster.proc k y = some p') (db : Db String) :
    (w.follow txn a).sql k y = (Site.resume p' db).sql ∧ (w.follow txn a).txn k y = txn := by
  rcases ha with ⟨rfl, -⟩ | ⟨r, rfl, -, -⟩ | ⟨rfl, hcancel⟩
  · exact ⟨put_self.trans (awaited_sql hp' db), put_self⟩
  · exact ⟨put_self.trans (awaited_sql hp' db), put_self⟩
  · obtain ⟨s, -, -, rfl⟩ := Proc.cancel_cases hcancel
    exact ⟨put_self, put_self⟩

/-! ## Whose statements these are -/

/-- The program sends no statement about another prepared transaction than that of `x`, whatever it
is answered. -/
def Concerns (x : XactId) (prog : SqlTask) : Prop :=
  prog.Wp (fun _ (_ : Unit) _ _ => True) (fun stmt _ => stmt.About x.toString) (fun _ _ => True) ()

theorem concerns_execute (self : SurrogateXactController) :
    Concerns self.xactId (self.executeSql ()) := by
  unfold Concerns SurrogateXactController.executeSql
  rw [Async.wp_bind, Async.wp_ask]
  refine ⟨trivial, fun r₁ _ _ => ?_⟩
  cases r₁ with
  | error e => trivial
  | ok b₁ =>
    show Prog.Wp _ _ _ _ _
    rw [Async.wp_bind, SurrogateXactController.wp_query_of]
    refine ⟨trivial, fun r₂ _ _ => ?_⟩
    cases r₂ with
    | error e => trivial
    | ok b₂ =>
      show Prog.Wp _ _ _ _ _
      rw [Async.wp_bind, Async.wp_attempt, SurrogateXactController.wp_query_of]
      refine ⟨trivial, fun r₃ _ _ => ?_⟩
      show Prog.Wp _ _ _ _ _
      rw [Async.wp_bind, SurrogateXactController.wp_query_of]
      refine ⟨rfl, fun r₄ _ _ => ?_⟩
      cases r₄ with
      | error e => trivial
      | ok b₄ => cases r₃ <;> trivial

theorem concerns_commit (self : SurrogateXactController) :
    Concerns self.xactId (self.commitSql ()) := by
  unfold Concerns SurrogateXactController.commitSql
  rw [Async.wp_bind, Async.wp_ask]
  refine ⟨trivial, fun r₁ _ _ => ?_⟩
  cases r₁ with
  | error e => trivial
  | ok b₁ =>
    show Prog.Wp _ _ _ _ _
    rw [Async.wp_bind, SurrogateXactController.wp_query_of]
    refine ⟨rfl, fun r₂ _ _ => ?_⟩
    cases r₂ <;> trivial

theorem concerns_rollback (self : SurrogateXactController) :
    Concerns self.xactId (self.rollbackSql ()) := by
  unfold Concerns SurrogateXactController.rollbackSql
  rw [Async.wp_bind, Async.wp_ask]
  refine ⟨trivial, fun r₁ _ _ => ?_⟩
  cases r₁ with
  | error e => trivial
  | ok b₁ =>
    show Prog.Wp _ _ _ _ _
    rw [Async.wp_bind, SurrogateXactController.wp_query_of]
    refine ⟨rfl, fun r₂ _ _ => ?_⟩
    cases r₂ with
    | error e => trivial
    | ok b₂ =>
      show Prog.Wp _ _ _ _ _
      cases b₂ with
      | false => trivial
      | true =>
        show Prog.Wp _ _ _ ((query (.rollbackPrepared _) _ >>= fun _ => pure ()) ()) _
        rw [Async.wp_bind, SurrogateXactController.wp_query_of]
        refine ⟨rfl, fun r₃ _ _ => ?_⟩
        cases r₃ <;> trivial

/-- What holds of the statements of all transactions. -/
structure Lawful (w : Federation) : Prop where
  honest : Cluster.Honest w.cluster
  /-- What is sent is for an effect that is awaited. -/
  begun : ∀ n x prog, w.sql n x = some prog →
    ∃ p s e k, w.cluster.proc n x = some p ∧ p.task = .busy s e k ∧ e.sql ≠ none
  concerns : ∀ n x prog, w.sql n x = some prog → Concerns x prog

/-- PostgreSQL works for a state manager on a transaction that was prepared by another node. -/
theorem surrogate_of_awaited {st : Cluster} (h : st.Honest) (hp : st.proc n x = some p)
    {s : XactStateManager} {e : Effect}
    {k : Answer → Prog XactStateManager Effect Answer (Except Failure Bool × XactStateManager)}
    (ht : p.task = .busy s e k) (he : e.sql ≠ none) :
    n ≠ x.nodeId ∧ ((∃ data, e = .execute x data) ∨ e = .commit x ∨ ∃ info, e = .rollback x info) := by
  have hcall : .call e ∈ p.log := ((h.served n).reach x p hp).awaiting ht
  obtain ⟨⟨msg, hmsg⟩, hcases⟩ := (h.stage hp).sql_cases hcall he
  exact ⟨(h.prepare_from hp hmsg).2.1, hcases⟩

/-- The statements that a state manager begins with are for the effect that it awaits. -/
theorem begun_of_resume {db : Db String} {prog : SqlTask}
    (hprog : (Site.resume p db).sql = some prog) :
    ∃ s e k, p.task = .busy s e k ∧ e.sql = some prog := by
  unfold Site.resume at hprog
  cases ht : p.task with
  | busy s e k =>
    rw [ht] at hprog
    exact ⟨s, e, k, rfl, hprog⟩
  | _ =>
    rw [ht] at hprog
    exact absurd hprog (by simp)

theorem concerns_of_resume {st : Cluster} (h : st.Honest) (hp : st.proc n x = some p)
    {db : Db String} {prog : SqlTask} (hprog : (Site.resume p db).sql = some prog) :
    Concerns x prog := by
  obtain ⟨s, e, k, ht, he⟩ := begun_of_resume hprog
  rcases (surrogate_of_awaited h hp ht (by rw [he]; simp)).2 with ⟨data, rfl⟩ | rfl | ⟨info, rfl⟩
  · obtain rfl := Option.some.inj he
    exact concerns_execute ⟨x, data⟩
  · obtain rfl := Option.some.inj he
    exact concerns_commit ⟨x, []⟩
  · obtain rfl := Option.some.inj he
    exact concerns_rollback ⟨x, []⟩

namespace Lawful

theorem init (history : NodeId → String → List GidEvent) : Lawful (Federation.init history) where
  honest := Cluster.Honest.init
  begun := fun n x prog h => absurd h (by simp [Federation.init])
  concerns := fun n x prog h => absurd h (by simp [Federation.init])

/-- Nothing is sent at the node that the transaction comes from, nor for an unknown transaction. -/
theorem sql_none (h : Lawful w) (hn : n = x.nodeId ∨ w.cluster.proc n x = none) :
    w.sql n x = none := by
  cases hsql : w.sql n x with
  | none => rfl
  | some prog =>
    obtain ⟨p, s, e, k, hp, ht, he⟩ := h.begun n x prog hsql
    rcases hn with hn | hn
    · exact absurd hn (surrogate_of_awaited h.honest hp ht he).1
    · exact absurd (hp.symm.trans hn) (by simp)

/-- What is awaited goes on being awaited when another state manager makes a step. -/
theorem begun_passive {c : Cluster} {a : Cluster.Action} (h : Cluster.Change w.cluster c a)
    (hown : ¬ a.Owns k y) (hp : w.cluster.proc k y = some p) :
    ∃ p', c.proc k y = some p' ∧ p'.task = p.task := by
  rcases h.passive hown with heq | ⟨m, -, heq⟩
  · exact ⟨p, heq.trans hp, rfl⟩
  · refine ⟨_, heq, ?_⟩
    unfold Cluster.posted
    rw [hp]
    exact Proc.post_task m p

/-- One step. -/
theorem step (h : Lawful w) {a : Act} (hs : w.step a = some w') : Lawful w' := by
  cases moved_of_step hs with
  | cluster a c txn hc hanswer h' =>
    have hhonest := h.honest.step hc
    have hchange := Cluster.change_of_step h.honest.nodeId hc
    have hcluster : w'.cluster = c := by rw [h', follow_cluster]
    have hcases : ∀ k y prog, w'.sql k y = some prog →
        (∃ p db, c.proc k y = some p ∧ (Site.resume p db).sql = some prog) ∨
          (¬ a.Owns k y ∧ w.sql k y = some prog) := by
      intro k y prog hprog
      by_cases hown : a.Owns k y
      · obtain ⟨p, p', -, hp', ha⟩ := hchange.active hown
        have hsql : w'.sql k y = (Site.resume p' (w.db k y)).sql := by
          rw [h']
          exact (follow_own ha hp' _).1
        rw [hsql] at hprog
        exact Or.inl ⟨p', w.db k y, hp', hprog⟩
      · rw [h', (follow_other hown).1] at hprog
        exact Or.inr ⟨hown, hprog⟩
    constructor
    · rw [hcluster]
      exact hhonest
    · intro k y prog hprog
      rw [hcluster]
      rcases hcases k y prog hprog with ⟨p, db, hp, hresume⟩ | ⟨hown, hold⟩
      · obtain ⟨s, e, k', ht, he⟩ := begun_of_resume hresume
        exact ⟨p, s, e, k', hp, ht, by rw [he]; simp⟩
      · obtain ⟨p, s, e, k', hp, ht, he⟩ := h.begun k y prog hold
        obtain ⟨p', hp', htask⟩ := begun_passive hchange hown hp
        exact ⟨p', s, e, k', hp', htask.trans ht, he⟩
    · intro k y prog hprog
      rcases hcases k y prog hprog with ⟨p, db, hp, hresume⟩ | ⟨-, hold⟩
      · exact concerns_of_resume hhonest hp hresume
      · exact h.concerns k y prog hold
  | statement n x u stmt next o r db hsql hexec h' =>
    subst h'
    have hcases : ∀ k y prog, put w.sql n x (some (next r)) k y = some prog →
        (k = n ∧ y = x ∧ prog = next r) ∨ w.sql k y = some prog := by
      intro k y prog hprog
      by_cases hk : k = n ∧ y = x
      · obtain ⟨rfl, rfl⟩ := hk
        rw [put_self] at hprog
        exact Or.inl ⟨rfl, rfl, (Option.some.inj hprog).symm⟩
      · rw [put_other hk] at hprog
        exact Or.inr hprog
    constructor
    · exact h.honest
    · intro k y prog hprog
      rcases hcases k y prog hprog with ⟨rfl, rfl, -⟩ | hold
      · exact h.begun k y _ hsql
      · exact h.begun k y prog hold
    · intro k y prog hprog
      rcases hcases k y prog hprog with ⟨rfl, rfl, rfl⟩ | hold
      · exact (h.concerns k y _ hsql).2 r () trivial
      · exact h.concerns k y prog hold

end Lawful

/-! ## What the state manager of one transaction sees -/

/-- The state manager of the transaction in front of what the database shows of it. -/
def site (self : Federation) (n : NodeId) (id : XactId) (p : XactProc) : Site :=
  ⟨p, (self.db n id).only id.toString, self.sql n id⟩

/-- Every state manager of the transaction sees PostgreSQL as a surrogate does that is alone. -/
structure Sound (id : XactId) (w : Federation) : Prop where
  lawful : Lawful w
  traced : ∀ n p, n ≠ id.nodeId → w.cluster.proc n id = some p →
    Site.Traced id n (w.site n id p)
  untouched : ∀ n, n = id.nodeId ∨ w.cluster.proc n id = none → w.history n id.toString = []

namespace Sound

theorem init {history : NodeId → String → List GidEvent} (h : ∀ n, history n id.toString = []) :
    Sound id (Federation.init history) where
  lawful := .init history
  traced := fun n p _ hp => absurd hp (by
    simp [Federation.init, Cluster.init, Cluster.proc, Manager.new])
  untouched := fun n _ => h n

/-- A message that comes for a surrogate is one for a surrogate. -/
theorem atSurrogate (h : Sound id w) (hn : n ≠ id.nodeId) {m : XsMessage}
    (hm : w.cluster.Comes n id m) : m.AtSurrogate n := by
  rcases hm with ⟨data, tx, -, heq⟩ | ⟨msg, rfl, hsent⟩
  · exact absurd heq.symm hn
  · have hforeign := h.lawful.honest.foreign hsent
    cases msg with
    | prepare msg => exact hforeign
    | vote v => trivial

/-- A message is posted. -/
theorem posted (h : Sound id w) (hn : n ≠ id.nodeId) {m : XsMessage}
    (hm : w.cluster.Comes n id m) : Site.Traced id n (w.site n id (w.cluster.posted n id m)) := by
  have hat : Site.Act.AtSurrogate n (fun _ _ => True) (w.site n id (w.cluster.posted n id m))
    (.post m) := h.atSurrogate hn hm
  unfold Cluster.posted
  cases hp : w.cluster.proc n id with
  | some p => exact (h.traced n p hn hp).step (a := .post m) hat rfl
  | none =>
    have hstart : Site.Traced id n (w.site n id (Proc.start (XactStateManager.new id n))) := by
      unfold site
      rw [h.lawful.sql_none (Or.inr hp)]
      exact .start ((Db.history_only).trans (h.untouched n (Or.inr hp)))
    exact hstart.step (a := .post m) hat rfl

/-- A state manager makes a step of its own, on a connection with `txn`. -/
theorem own (h : Sound id w) (hn : n ≠ id.nodeId) {a : Cluster.Action}
    (hp : w.cluster.proc n id = some p) (ha : w.cluster.Own n id p p' a)
    (hanswer : ∀ r, a = .answer n id r → w.sql n id = none ∨ w.sql n id = some (.done (r, ())))
    (txn : Txn) :
    Site.Traced id n ⟨p', ⟨txn, ((w.db n id).only id.toString).history⟩,
      (Site.resume p' (w.db n id)).sql⟩ := by
  have htraced := h.traced n p hn hp
  rcases ha with ⟨-, htake⟩ | ⟨r, rfl, -, hans⟩ | ⟨-, hcancel⟩
  · have hnone : w.sql n id = none := by
      cases hsql : w.sql n id with
      | none => rfl
      | some prog =>
        obtain ⟨st, e, k, ht, -⟩ := htraced.settled.sending prog hsql
        obtain ⟨st', m, rest, hidle, -, -⟩ := Proc.take_cases htake
        exact absurd (hidle.symm.trans ht) (by simp)
    have hre := htraced.reconnect (fun prog hprog => absurd (hnone.symm.trans hprog) (by simp)) txn
    exact hre.step (a := .take) trivial (by
      show (p.take XactStateManager.handle).map _ = _
      rw [htake]
      rfl)
  · rcases hanswer r rfl with hnone | hdone
    · have hre := htraced.reconnect (fun prog hprog => absurd (hnone.symm.trans hprog) (by simp)) txn
      refine hre.step (a := .answer r) trivial ?_
      simp only [Site.step, hnone, hans]
      rfl
    · have hre := htraced.reconnect (fun prog hprog =>
        ⟨(r, ()), Option.some.inj (hprog.symm.trans hdone)⟩) txn
      refine hre.step (a := .finish) trivial ?_
      simp only [Site.step, hdone, hans]
      rfl
  · have hstop : Site.Traced id n ⟨p', (w.db n id).only id.toString, none⟩ :=
      htraced.step (a := .stop) trivial (by
        show p.cancel.map _ = _
        rw [hcancel]
        rfl)
    have hsql : (Site.resume p' (w.db n id)).sql = none := by
      obtain ⟨s, -, -, rfl⟩ := Proc.cancel_cases hcancel
      rfl
    rw [hsql]
    exact hstop.reconnect (fun prog hprog => absurd hprog (by simp)) txn

/-- One step. -/
theorem step (h : Sound id w) {a : Act} (hs : w.step a = some w') : Sound id w' := by
  have hlawful := h.lawful.step hs
  cases moved_of_step hs with
  | cluster a c txn hc hanswer h' =>
    have hchange := Cluster.change_of_step h.lawful.honest.nodeId hc
    have hhistory : w'.history = w.history := by rw [h', follow_history]
    have hcluster : w'.cluster = c := by rw [h', follow_cluster]
    refine ⟨hlawful, fun n p' hn hp' => ?_, fun n hn => ?_⟩
    · rw [hcluster] at hp'
      by_cases hown : a.Owns n id
      · obtain ⟨p, p'', hp, hp'', ha⟩ := hchange.active hown
        obtain rfl := Option.some.inj (hp'.symm.trans hp'')
        have htraced := h.own hn hp ha (fun r hr => hanswer n id r hr) txn
        have hsql : w'.sql n id = (Site.resume p' (w.db n id)).sql := by
          rw [h']
          exact (follow_own ha hp' _).1
        have htxn : w'.txn n id = txn := by
          rw [h']
          exact (follow_own ha hp' (w.db n id)).2
        unfold site db
        rw [hsql, htxn, hhistory]
        exact htraced
      · have hsite : ∀ q, w'.site n id q = w.site n id q := by
          intro q
          have hsql : w'.sql n id = w.sql n id := by
            rw [h']
            exact (follow_other hown).1
          have htxn : w'.txn n id = w.txn n id := by
            rw [h']
            exact (follow_other hown).2
          unfold site db
          rw [hhistory, hsql, htxn]
        rw [hsite]
        rcases hchange.passive hown with heq | ⟨m, hm, heq⟩
        · exact h.traced n p' hn (heq.symm.trans hp')
        · obtain rfl := Option.some.inj (hp'.symm.trans heq)
          exact h.posted hn hm
    · rw [hhistory]
      refine h.untouched n (hn.imp_right fun hnone => ?_)
      cases hp : w.cluster.proc n id with
      | none => rfl
      | some p =>
        obtain ⟨p', hp', -⟩ := hchange.log_mono hp
        rw [hcluster] at hnone
        exact absurd (hnone.symm.trans hp') (by simp)
  | statement k x u stmt next o r db hsql hexec h' =>
    have habout : stmt.About x.toString := (h.lawful.concerns k x _ hsql).1
    have hother : ∀ n, ¬ (n = k ∧ id = x) → w'.history n id.toString = w.history n id.toString := by
      intro n hne
      rw [h']
      show Function.update w.history k db.history n id.toString = _
      by_cases hk : n = k
      · subst hk
        rw [Function.update_self]
        exact Db.exec_other habout (fun heq => hne ⟨rfl, XactId.toString_injective heq⟩) hexec
      · rw [Function.update_of_ne hk]
    have hcluster : w'.cluster = w.cluster := by rw [h']; rfl
    refine ⟨hlawful, fun n p hn hp => ?_, fun n hn => ?_⟩
    · rw [hcluster] at hp
      by_cases hk : n = k ∧ id = x
      · obtain ⟨rfl, rfl⟩ := hk
        have hsite : w'.site n id p = ⟨p, db.only id.toString, some (next r)⟩ := by
          rw [h']
          unfold site Federation.db withSql
          simp only [put_self, Function.update_self]
        rw [hsite]
        refine (h.traced n p hn hp).step (a := .statement o) trivial ?_
        simp only [Site.step, site, hsql, Db.exec_only habout, hexec]
        rfl
      · have hsite : w'.site n id p = w.site n id p := by
          have hdb : (w'.db n id).only id.toString = (w.db n id).only id.toString := by
            unfold Federation.db Db.only
            congr 1
            · rw [h']
              exact put_other hk
            · funext g
              by_cases hg : g = id.toString
              · rw [if_pos hg, if_pos hg, hg]
                exact hother n hk
              · rw [if_neg hg, if_neg hg]
          unfold site
          rw [hdb, h']
          congr 1
          exact put_other hk
        rw [hsite]
        exact h.traced n p hn hp
    · rw [hcluster] at hn
      rw [hother n fun hk => ?_]
      · exact h.untouched n hn
      · obtain ⟨rfl, rfl⟩ := hk
        rw [h.lawful.sql_none hn] at hsql
        exact absurd hsql (by simp)

end Sound

end Federation

end Sunstorm
