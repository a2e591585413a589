import Sunstorm.Commitment.Proofs.CommitmentProofs
import Sunstorm.Machine.Proofs.MachineProofs
import Sunstorm.Xactserver.Proofs.AgreementProofs
import Sunstorm.Xactserver.Proofs.FederationProofs

/-!
# Proofs: the databases commit atomically

A statement that commits at one node is sent only after every execution has succeeded, and none that
rolls back is sent at another node. So what the databases show of a transaction are steps of atomic
commitment.
-/

namespace Sunstorm

open Await Postgres Tally

namespace Cluster.Honest

variable {st : Cluster} {n x y t : NodeId} {id : XactId} {p q : XactProc} {data : Bytes} {P : BitSet}

/-- Whoever carries a decision out has a ballot with that decision behind it. -/
theorem ballot_of_act (h : Honest st) (hp : st.proc n id = some p) {e : Effect}
    (hcall : .call e ∈ p.log) (he : e.isCommit = true ∨ e.isRollback = true) :
    ∃ o P early late, Standing id n (XactProc.status p) p.log o P early late ∧
      o.closing id (decision P (o.votes n ++ (early ++ late).map VoteMessage.cast)) = some e := by
  rcases (h.stage hp).standing with ⟨-, hacts, -⟩ | ⟨o, P, early, late, hst⟩
  · obtain ⟨hc, hr⟩ := hacts e (mem_calls.mpr hcall)
    rw [hc, hr] at he
    exact absurd he (by simp)
  · exact ⟨o, P, early, late, hst, hst.acts e (mem_calls.mpr hcall) he⟩

/-- Whoever commits, or says so to its client, knows that every worker has executed the
transaction. -/
theorem worked_of_commit (h : Honest st) (hid : st.Unique id data)
    (hP : RWSet.participantsIn data = some P) (hp : st.proc n id = some p) {e : Effect}
    (hcall : .call e ∈ p.log) (he : e.isCommit = true) (ht : t.toUsize ∈ P) (hc : t ≠ id.nodeId) :
    ∃ q, st.proc t id = some q ∧ .ret (.execute id data) (.ok ()) ∈ q.log := by
  obtain ⟨o, Pn, early, late, hst, hclosing⟩ := h.ballot_of_act hp hcall (Or.inl he)
  have hdata := h.data_eq hp hst hid
  have hdec := hst.decoded
  rw [hdata, hP] at hdec
  obtain rfl := Option.some.inj hdec
  rcases Opening.closing_cases hclosing with ⟨hd, -⟩ | ⟨-, hnot, -⟩
  · rw [← hdata]
    exact h.validity hp hst hd ht hc
  · rw [he] at hnot
    exact absurd hnot (by simp)

/-- No node commits while another one rolls back. -/
theorem acts_agree (h : Honest st) (hp : st.proc x id = some p) (hq : st.proc y id = some q)
    (hne : x ≠ y) {e e' : Effect} (hcall : .call e ∈ p.log) (he : e.isCommit = true)
    (hcall' : .call e' ∈ q.log) : e'.isRollback = false := by
  cases he' : e'.isRollback with
  | false => rfl
  | true =>
    obtain ⟨o, Px, early, late, hst, hclosing⟩ := h.ballot_of_act hp hcall (Or.inl he)
    obtain ⟨o', Py, early', late', hst', hclosing'⟩ := h.ballot_of_act hq hcall' (Or.inr he')
    rcases Opening.closing_cases hclosing with ⟨hd, -⟩ | ⟨-, hnot, -⟩
    · rcases Opening.closing_cases hclosing' with ⟨-, -, hnot⟩ | ⟨⟨i, reason, hd'⟩, -⟩
      · rw [he'] at hnot
        exact absurd hnot (by simp)
      · exact absurd hd' (h.agreement hp hst hq hst' hne hd)
    · rw [he] at hnot
      exact absurd hnot (by simp)

end Cluster.Honest

namespace Federation

variable {w w' : Federation} {n x y : NodeId} {id : XactId} {data : Bytes} {P : BitSet}
  {p : XactProc}

theorem call_of_sqlLog {log : XactLog} {ev : Event XsMessage Effect Answer} (h : ev ∈ sqlLog log) :
    ev ∈ log := (List.mem_filter.mp h).1

namespace Sound

/-- What has happened at a node that is not the coordinator was asked for by its state manager. -/
theorem shown (h : Sound id w) (hn : n ≠ id.nodeId) (hp : w.cluster.proc n id = some p) :
    Shown id (sqlLog p.log) (w.history n id.toString) := by
  have hshown := (h.traced n p hn hp).shown
  unfold site at hshown
  rw [Db.history_only] at hshown
  exact hshown

/-- A node where something has happened has a state manager, and is not the coordinator. -/
theorem known (h : Sound id w) (hn : w.history n id.toString ≠ []) :
    n ≠ id.nodeId ∧ ∃ p, w.cluster.proc n id = some p := by
  constructor
  · intro heq
    exact hn (h.untouched n (Or.inl heq))
  · cases hp : w.cluster.proc n id with
    | none => exact absurd (h.untouched n (Or.inr hp)) hn
    | some p => exact ⟨p, rfl⟩

theorem commit_called (h : Sound id w) (hc : .committed ∈ w.history n id.toString) :
    ∃ p, w.cluster.proc n id = some p ∧ .call (.commit id) ∈ p.log := by
  obtain ⟨hn, p, hp⟩ := h.known (List.ne_nil_of_mem hc)
  exact ⟨p, hp, call_of_sqlLog ((h.shown hn hp).committed hc)⟩

theorem rollback_called (h : Sound id w) (hr : .rolledBack ∈ w.history n id.toString) :
    ∃ p info, w.cluster.proc n id = some p ∧ .call (.rollback id info) ∈ p.log := by
  obtain ⟨hn, p, hp⟩ := h.known (List.ne_nil_of_mem hr)
  obtain ⟨info, hinfo⟩ := (h.shown hn hp).rolledBack hr
  exact ⟨p, info, hp, call_of_sqlLog hinfo⟩

/-- Once some node commits, or its client is told so, the transaction is prepared with its work done
at every worker, and is not rolled back at any other. -/
theorem held_of_commit (h : Sound id w) (hid : w.cluster.Unique id data)
    (hP : RWSet.participantsIn data = some P) (hp : w.cluster.proc n id = some p) {e : Effect}
    (hcall : .call e ∈ p.log) (he : e.isCommit = true) (t : Workers id P) (hne : n ≠ t.1) :
    w.history t.1 id.toString = [.prepared true] ∨
      w.history t.1 id.toString = [.prepared true, .committed] := by
  obtain ⟨t, ht, hc⟩ := t
  have hhonest := h.lawful.honest
  obtain ⟨q, hq, hret⟩ := hhonest.worked_of_commit hid hP hp hcall he ht hc
  have hshown := h.shown hc hq
  have hworked := hshown.worked data (List.mem_filter.mpr ⟨hret, rfl⟩)
  rcases hshown.form with hnil | ⟨worked, hprepared | hcommitted | hrolled⟩
  · rw [hnil] at hworked
    exact absurd hworked (by simp)
  · rw [hprepared] at hworked
    obtain rfl : true = worked := by simpa using hworked
    exact Or.inl hprepared
  · rw [hcommitted] at hworked
    obtain rfl : true = worked := by simpa using hworked
    exact Or.inr hcommitted
  · obtain ⟨q', info, hq', hcall'⟩ := h.rollback_called (n := t) (by
      show _ ∈ w.history t id.toString
      rw [hrolled]
      simp)
    exact absurd (hhonest.acts_agree hp hq' hne hcall he hcall') (by simp [Effect.isRollback])

end Sound

/-! ## The refinement -/

theorem phaseOf_committed {history : List GidEvent} (h : phaseOf history = .committed) :
    .committed ∈ history := by
  unfold phaseOf at h
  cases hlast : history.getLast? with
  | none =>
    rw [hlast] at h
    exact absurd h (by simp)
  | some ev =>
    rw [hlast] at h
    cases ev with
    | committed => exact List.mem_of_getLast? hlast
    | _ => exact absurd h (by simp)

/-- A statement changes the history of one transaction at one node, and it fits there. -/
theorem history_cases (h : Sound id w) {a : Act} (hs : w.step a = some w') :
    (∀ n, w'.history n id.toString = w.history n id.toString) ∨
      ∃ k p e stmt ev, k ≠ id.nodeId ∧ w.cluster.proc k id = some p ∧ .call e ∈ p.log ∧
        e.sql ≠ none ∧ Fits id e stmt (w.history k id.toString) ∧ stmt.Records id.toString ev ∧
        w'.history k id.toString = w.history k id.toString ++ [ev] ∧
        ∀ n, n ≠ k → w'.history n id.toString = w.history n id.toString := by
  cases moved_of_step hs with
  | cluster a c txn hc hanswer h' =>
    refine Or.inl fun n => ?_
    rw [h', follow_history]
  | statement k x u stmt next o r db hsql hexec h' =>
    have habout : stmt.About x.toString := (h.lawful.concerns k x _ hsql).1
    have hhistory : w'.history = Function.update w.history k db.history := by
      rw [h']
      rfl
    have hother : ∀ n, n ≠ k → w'.history n id.toString = w.history n id.toString := by
      intro n hne
      rw [hhistory, Function.update_of_ne hne]
    have hsame : db.history id.toString = w.history k id.toString →
        ∀ n, w'.history n id.toString = w.history n id.toString := by
      intro heq n
      by_cases hk : n = k
      · subst hk
        rw [hhistory, Function.update_self, heq]
      · exact hother n hk
    by_cases hx : id = x
    · subst hx
      obtain ⟨p, s, e, k', hp, ht, he⟩ := h.lawful.begun k id _ hsql
      have hk := (surrogate_of_awaited h.lawful.honest hp ht he).1
      obtain ⟨s', e', k'', ht', hwp⟩ := (h.traced k p hk hp).fitting _ hsql
      obtain ⟨rfl, rfl, -⟩ := Task.busy.inj (ht.symm.trans ht')
      have hfits : Fits id e stmt (w.history k id.toString) := by
        have hhead := hwp.1
        unfold Fitting site at hhead
        rw [Db.history_only] at hhead
        exact hhead
      rcases Db.exec_own habout hexec with heq | ⟨ev, hev, heq⟩
      · exact Or.inl (hsame heq)
      · have hcall : .call e ∈ p.log := ((h.lawful.honest.served k).reach id p hp).awaiting ht
        refine Or.inr ⟨k, p, e, stmt, ev, hk, hp, hcall, he, hfits, hev, ?_, hother⟩
        rw [hhistory, Function.update_self]
        exact heq
    · have hne : id.toString ≠ x.toString := fun heq => hx (XactId.toString_injective heq)
      exact Or.inl (hsame (Db.exec_other habout hne hexec))

/-- Every step of the federation is a step of atomic commitment, or none at all. -/
theorem phases_step (h : Sound id w) (hid : w.cluster.Unique id data)
    (hP : RWSet.participantsIn data = some P) {a : Act} (hs : w.step a = some w') :
    w'.phases id P = w.phases id P ∨ Commitment.Step (w.phases id P) (w'.phases id P) := by
  rcases history_cases h hs with hsame | ⟨k, p, e, stmt, ev, hk, hp, hcall, -, hfits, hev, hown, hother⟩
  · refine Or.inl (funext fun n => ?_)
    unfold phases
    rw [hsame]
  · by_cases hmem : k.toUsize ∈ P
    · let i : Workers id P := ⟨k, hmem, hk⟩
      have hphases : w'.phases id P = Function.update (w.phases id P) i
          (phaseOf (w.history k id.toString ++ [ev])) := by
        funext j
        unfold phases
        by_cases hj : j = i
        · subst hj
          rw [Function.update_self]
          exact congrArg phaseOf hown
        · rw [Function.update_of_ne hj, hother j.1 fun heq => hj (Subtype.ext heq)]
      have hphase : ∀ history, w.history k id.toString = history →
          w.phases id P i = phaseOf history := fun history heq => congrArg phaseOf heq
      generalize hnow : w.history k id.toString = now at hfits hphases
      refine Or.inr ?_
      cases hfits with
      | connect | begin | work | lookup => exact hev.elim
      | prepare data' =>
        cases ev with
        | prepared worked => exact .prepare i (hphase _ hnow) hphases
        | _ => exact hev.elim
      | commit =>
        cases ev with
        | committed =>
          refine .commit i (hphase _ hnow) (fun j => ?_) hphases
          by_cases hj : k = j.1
          · have hij : j = i := Subtype.ext hj.symm
            subst hij
            exact Or.inl (hphase _ hnow)
          · rcases h.held_of_commit hid hP hp hcall rfl j hj with hheld | hheld
            · exact Or.inl (congrArg phaseOf hheld)
            · exact Or.inr (congrArg phaseOf hheld)
        | _ => exact hev.elim
      | rollback info worked =>
        cases ev with
        | rolledBack =>
          refine .rollBack i (Or.inr (hphase _ hnow)) (fun j hj => ?_) hphases
          obtain ⟨q, hq, hcommit⟩ := h.commit_called (phaseOf_committed hj)
          have hne : j.1 ≠ k := by
            intro heq
            have hij : j = i := Subtype.ext heq
            subst hij
            rw [hphase _ hnow] at hj
            exact absurd hj (by simp [phaseOf])
          exact absurd (h.lawful.honest.acts_agree hq hp hne hcommit rfl hcall)
            (by simp [Effect.isRollback])
        | _ => exact hev.elim
    · -- a node that takes no part is not looked at
      refine Or.inl (funext fun n => ?_)
      unfold phases
      rw [hother n.1 fun heq => hmem (heq ▸ n.2.1)]

/-- PostgreSQL is asked only for a transaction that was handed over to some node. -/
theorem assigned_of_call {st : Cluster} (h : st.Honest) (hp : st.proc n id = some p) {e : Effect}
    (hcall : .call e ∈ p.log) (he : e.sql ≠ none) : ∃ data, (id, data) ∈ st.assigned := by
  obtain ⟨⟨msg, hmsg⟩, -⟩ := (h.stage hp).sql_cases hcall he
  obtain ⟨-, -, -, q, messages, hq, hbroadcast, -⟩ := h.prepare_from hp hmsg
  obtain ⟨o, P, early, late, hst⟩ := h.standing_of_broadcast hq hbroadcast
  exact h.assigned_of_standing hq hst

theorem Sound.assigned (h : Sound id w) (hn : w.history n id.toString ≠ []) :
    ∃ data, (id, data) ∈ w.cluster.assigned := by
  obtain ⟨hne, p, hp⟩ := h.known hn
  have hshown := h.shown hne hp
  have hshape : SqlShape id (sqlLog p.log) :=
    (Site.told_of_reach (h.traced n p hne hp).settled.reach).shape
  have hcall : ∃ data, .call (.execute id data) ∈ sqlLog p.log := by
    generalize sqlLog p.log = sql at hshown hshape
    cases hshape with
    | untouched => exact absurd (hshown.untouched rfl) hn
    | executing data => exact ⟨data, by simp⟩
    | executed data r => exact ⟨data, by simp⟩
    | closing data r c hc => exact ⟨data, by simp⟩
    | closed data r c hc r' => exact ⟨data, by simp⟩
  obtain ⟨data, hdata⟩ := hcall
  exact assigned_of_call h.lawful.honest hp (call_of_sqlLog hdata) (by simp [Effect.sql])

/-- The ids that were given stay given. -/
theorem assigned_step (h : Lawful w) {a : Act} (hs : w.step a = some w') :
    ∃ more, w'.cluster.assigned = w.cluster.assigned ++ more := by
  cases moved_of_step hs with
  | cluster a c txn hc hanswer h' =>
    have hcluster : w'.cluster = c := by rw [h', follow_cluster]
    rw [hcluster]
    cases Cluster.change_of_step h.honest.nodeId hc with
    | client n data tx procs sent delivered assigned counter => exact ⟨_, assigned⟩
    | deliver n msg mem procs sent delivered assigned counter =>
      exact ⟨[], by rw [assigned, List.append_nil]⟩
    | emit n x envelope mem procs sent delivered assigned counter =>
      exact ⟨[], by rw [assigned, List.append_nil]⟩
    | own a n x p p' hp ha procs sent delivered assigned counter =>
      exact ⟨[], by rw [assigned, List.append_nil]⟩
  | statement n x u stmt next o r db hsql hexec h' =>
    rw [h']
    exact ⟨[], (List.append_nil _).symm⟩

theorem sound_of_reach {history : NodeId → String → List GidEvent}
    (h₀ : ∀ n, history n id.toString = [])
    (hr : Machine.Reach step (fun _ _ => True) (init history) w) : Sound id w :=
  hr.invariant (.init h₀) fun _ _ _ h _ hs => h.step hs

/-- What the databases show is reached by steps of atomic commitment. -/
theorem phases_reach {history : NodeId → String → List GidEvent}
    (h₀ : ∀ n, history n id.toString = []) (hP : RWSet.participantsIn data = some P)
    (hr : Machine.Reach step (fun _ _ => True) (init history) w)
    (hid : w.cluster.Unique id data) : Commitment.Reach (w.phases id P) := by
  induction hr with
  | start => exact absurd hid (by simp [Cluster.Unique, init, Cluster.init])
  | @step w w' a hr _ hs ih =>
    have h := sound_of_reach h₀ hr
    obtain ⟨more, hmore⟩ := assigned_step h.lawful hs
    have hfilter := hid
    unfold Cluster.Unique at hfilter
    rw [hmore, List.filter_append] at hfilter
    cases hold : w.cluster.assigned.filter fun a => a.1 = id with
    | nil =>
      -- the transaction is handed over by this very step
      have hnone : ∀ data', (id, data') ∉ w.cluster.assigned := by
        intro data' hmem
        have hne := List.filter_eq_nil_iff.mp hold _ hmem
        exact hne (decide_eq_true rfl)
      have hworking : w'.phases id P = fun _ => .working := by
        funext n
        rcases history_cases h hs with hsame | ⟨k, p, e, stmt, ev, hk, hp, hcall, he, -⟩
        · have hempty : w.history n.1 id.toString = [] := by
            by_contra hn
            obtain ⟨data', hmem⟩ := h.assigned hn
            exact hnone data' hmem
          unfold phases
          rw [hsame, hempty]
          rfl
        · obtain ⟨data', hmem⟩ := assigned_of_call h.lawful.honest hp hcall he
          exact absurd hmem (hnone data')
      rw [hworking]
      exact .start
    | cons b rest =>
      have hunique : w.cluster.Unique id data := by
        rw [hold, List.cons_append, List.cons.injEq, List.append_eq_nil_iff] at hfilter
        obtain ⟨rfl, rfl, -⟩ := hfilter
        exact hold
      rcases phases_step h hunique hP hs with heq | hstep
      · rw [heq]
        exact ih hunique
      · exact .step (ih hunique) hstep

/-- **The databases commit atomically.** From databases that show nothing of the transaction, what
they show in any run is reached by atomic commitment among the workers, and whatever happens next is
a step of atomic commitment or changes nothing that they show. -/
theorem refines_commitment (history : NodeId → String → List GidEvent) (id : XactId) (data : Bytes)
    (P : BitSet) (h₀ : ∀ n, history n id.toString = []) (hP : RWSet.participantsIn data = some P)
    (w : Federation) (hr : Machine.Reach step (fun _ _ => True) (init history) w)
    (hid : w.cluster.Unique id data) :
    Commitment.Reach (w.phases id P) ∧ ∀ a w', w.step a = some w' →
      w'.phases id P = w.phases id P ∨ Commitment.Step (w.phases id P) (w'.phases id P) := by
  constructor
  · exact phases_reach h₀ hP hr hid
  · intro a w' hs
    exact phases_step (sound_of_reach h₀ hr) hid hP hs

/-- The two nodes of `Cluster.commitRun`, with the statements of the one that does the work. -/
def commitRun : List Act :=
  let id : XactId := .new 1 ⟨0⟩
  let data : Bytes := [0, 0, 0, 1, 0, 0, 0, 0, 0, 0, 0, 3, 0, 0, 0, 0, 0, 0, 0, 0]
  let prepare : PeerMessage := .prepare { «from» := 0, xactId := id.val, data }
  let vote : PeerMessage := .vote { «from» := 1, xactId := id.val, rollbackReason := none }
  let work : Act := .statement ⟨1⟩ id .done
  [.cluster (.client ⟨0⟩ data ⟨7⟩) .idle, .cluster (.take ⟨0⟩ id) .idle,
    .cluster (.emit ⟨0⟩ id (⟨1⟩, prepare)) .idle, .cluster (.deliver ⟨1⟩ prepare) .idle,
    .cluster (.answer ⟨0⟩ id (.ok ())) .idle, .cluster (.take ⟨1⟩ id) .idle,
    work, work, work, work, .finish ⟨1⟩ id .idle,
    .cluster (.emit ⟨1⟩ id (⟨0⟩, vote)) .idle, .cluster (.answer ⟨1⟩ id (.ok ())) .idle,
    work, work, .finish ⟨1⟩ id .idle,
    .cluster (.deliver ⟨0⟩ vote) .idle, .cluster (.take ⟨0⟩ id) .idle,
    .cluster (.answer ⟨0⟩ id (.ok ())) .idle]

theorem refines_commitment_commit :
    ∃ w, Machine.run step (init fun _ _ => []) commitRun = some w ∧
      phaseOf (w.history ⟨1⟩ (XactId.new 1 ⟨0⟩).toString) = .committed ∧
      Commitment.Reach (w.phases (.new 1 ⟨0⟩) {0, 1}) := by
  have hrun : (Machine.run step (init fun _ _ => []) commitRun).map
      (fun w => (w.cluster.assigned, phaseOf (w.history ⟨1⟩ (XactId.new 1 ⟨0⟩).toString))) =
      some ([(.new 1 ⟨0⟩, [0, 0, 0, 1, 0, 0, 0, 0, 0, 0, 0, 3, 0, 0, 0, 0, 0, 0, 0, 0])],
        .committed) := by decide
  obtain ⟨w, hw, heq⟩ := Option.map_eq_some_iff.mp hrun
  obtain ⟨hassigned, hphase⟩ := Prod.mk.inj heq
  have hreach : Machine.Reach step (fun _ _ => True) (init fun _ _ => []) w :=
    Machine.reach_of_run .start (Machine.admitted_of_forall fun _ _ _ => trivial) hw
  have hunique : w.cluster.Unique (.new 1 ⟨0⟩)
      [0, 0, 0, 1, 0, 0, 0, 0, 0, 0, 0, 3, 0, 0, 0, 0, 0, 0, 0, 0] := by
    unfold Cluster.Unique
    rw [hassigned]
    decide
  exact ⟨w, hw, hphase,
    (refines_commitment _ _ _ _ (fun _ => rfl) (by decide) w hreach hunique).1⟩

/-! ## What the databases promise -/

/-- No database has committed the transaction while another one has rolled it back. -/
theorem databases_agree {history : NodeId → String → List GidEvent}
    (h₀ : ∀ n, history n id.toString = []) (hP : RWSet.participantsIn data = some P)
    (hr : Machine.Reach step (fun _ _ => True) (init history) w)
    (hid : w.cluster.Unique id data) {s t : Workers id P} (hs : w.phases id P s = .committed) :
    w.phases id P t ≠ .rolledBack := (phases_reach h₀ hP hr hid).consistent hs

/-- Logs only grow. -/
theorem log_step (h : Lawful w) {a : Act} (hs : w.step a = some w')
    (hp : w.cluster.proc n id = some p) :
    ∃ p', w'.cluster.proc n id = some p' ∧ p.log <+: p'.log := by
  cases moved_of_step hs with
  | cluster a c txn hc hanswer h' =>
    have hcluster : w'.cluster = c := by rw [h', follow_cluster]
    rw [hcluster]
    exact (Cluster.change_of_step h.honest.nodeId hc).log_mono hp
  | statement k x u stmt next o r db hsql hexec h' =>
    have hcluster : w'.cluster = w.cluster := by
      rw [h']
      rfl
    rw [hcluster]
    exact ⟨p, hp, List.prefix_refl _⟩

/-- **What a client was told holds.** From the moment when the coordinator tells its client that the
transaction is committed, every worker has it prepared with its work done, or has committed it. So
none has rolled it back, and none ever will. -/
theorem told_commit_holds (history : NodeId → String → List GidEvent) (id : XactId) (data : Bytes)
    (P : BitSet) (h₀ : ∀ n, history n id.toString = []) (hP : RWSet.participantsIn data = some P)
    (w w' : Federation) (hr : Machine.Reach step (fun _ _ => True) (init history) w)
    (hr' : Machine.Reach step (fun _ _ => True) w w') (hid : w'.cluster.Unique id data)
    (p : XactProc) (tx : Sender) (hp : w.cluster.proc id.nodeId id = some p)
    (htold : .call (.replyCommit (some tx)) ∈ p.log) (t : Workers id P) :
    w'.history t.1 id.toString = [.prepared true] ∨
      w'.history t.1 id.toString = [.prepared true, .committed] := by
  have hinv : ∀ w₁, Machine.Reach step (fun _ _ => True) w w₁ → Sound id w₁ ∧
      ∃ p₁, w₁.cluster.proc id.nodeId id = some p₁ ∧ .call (.replyCommit (some tx)) ∈ p₁.log := by
    intro w₁ hr₁
    induction hr₁ with
    | start => exact ⟨sound_of_reach h₀ hr, p, hp, htold⟩
    | step a _ _ hs ih =>
      obtain ⟨h, p₁, hp₁, hmem⟩ := ih
      obtain ⟨p₂, hp₂, hlog⟩ := log_step h.lawful hs hp₁
      exact ⟨h.step hs, p₂, hp₂, hlog.subset hmem⟩
  obtain ⟨h, p', hp', hcall⟩ := hinv w' hr'
  exact h.held_of_commit hid hP hp' hcall rfl t fun heq => t.2.2 heq.symm

theorem told_commit_holds_commit :
    ∃ w, Machine.run step (init fun _ _ => []) commitRun = some w ∧
      (w.history ⟨1⟩ (XactId.new 1 ⟨0⟩).toString = [.prepared true] ∨
        w.history ⟨1⟩ (XactId.new 1 ⟨0⟩).toString = [.prepared true, .committed]) := by
  have hrun : (Machine.run step (init fun _ _ => []) commitRun).map
      (fun w => (w.cluster.assigned, (w.cluster.proc ⟨0⟩ (.new 1 ⟨0⟩)).map fun p =>
        decide (.call (.replyCommit (some ⟨7⟩)) ∈ p.log))) =
      some ([(.new 1 ⟨0⟩, [0, 0, 0, 1, 0, 0, 0, 0, 0, 0, 0, 3, 0, 0, 0, 0, 0, 0, 0, 0])],
        some true) := by decide
  obtain ⟨w, hw, heq⟩ := Option.map_eq_some_iff.mp hrun
  obtain ⟨hassigned, htold⟩ := Prod.mk.inj heq
  obtain ⟨p, hp, hmem⟩ := Option.map_eq_some_iff.mp htold
  have hreach : Machine.Reach step (fun _ _ => True) (init fun _ _ => []) w :=
    Machine.reach_of_run .start (Machine.admitted_of_forall fun _ _ _ => trivial) hw
  have hunique : w.cluster.Unique (.new 1 ⟨0⟩)
      [0, 0, 0, 1, 0, 0, 0, 0, 0, 0, 0, 3, 0, 0, 0, 0, 0, 0, 0, 0] := by
    unfold Cluster.Unique
    rw [hassigned]
    decide
  exact ⟨w, hw, told_commit_holds _ (.new 1 ⟨0⟩) _ {0, 1} (fun _ => rfl) (by decide) w w hreach
    .start hunique p ⟨7⟩ hp (of_decide_eq_true hmem) ⟨⟨1⟩, by decide⟩⟩

end Federation

end Sunstorm
