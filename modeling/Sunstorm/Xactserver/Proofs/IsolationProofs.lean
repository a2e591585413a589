import Sunstorm.Machine.Proofs.FamilyProofs
import Sunstorm.Machine.Proofs.MachineProofs
import Sunstorm.Xactserver.Isolation
import Sunstorm.Xactserver.Proofs.ClusterProofs

/-!
# Proofs: transactions do not disturb each other

A node is its state managers side by side: what becomes of a transaction there depends on its own
messages, answers and stops only, whatever the node has to do with others.
-/

namespace Sunstorm

open Await

namespace Manager

variable {self self' : Manager} {n : NodeId}

/-- The action is possible as far as the channel of the state manager goes. -/
def admits (self : Manager) : Action → Bool
  | .message msg => self.hasRoom msg
  | _ => true

theorem alone_some {id : XactId} {p : XactProc} {a : Proc.Act XsMessage Answer}
    (ha : ∀ m, a ≠ .post m) :
    alone n id (some p) a = (p.act XactStateManager.handle a).map some := by
  cases a with
  | post m => exact absurd rfl (ha m)
  | _ => rfl

/-- The manager hands a message over to the state manager of its transaction alone, when its channel
takes it. -/
theorem family_processMessage (msg : XsMessage) :
    Machine.family (alone self.nodeId) self.xactStateManagers (self.xactIdOf msg, .post msg) =
      if self.hasRoom msg then some (self.processMessage msg).xactStateManagers else none := by
  have hupdate : ∀ p, some ((self.xactStateManagers (self.xactIdOf msg)).getD
        (Proc.start (XactStateManager.new (self.xactIdOf msg) self.nodeId)) |>.post msg) = some p →
      Function.update self.xactStateManagers (self.xactIdOf msg) (some p) =
        (self.processMessage msg).xactStateManagers := by
    intro p hp
    funext id
    rw [processMessage_procs]
    by_cases hid : id = self.xactIdOf msg
    · subst hid
      rw [Function.update_self, if_pos rfl, hp]
    · rw [Function.update_of_ne hid, if_neg hid]
  unfold Machine.family hasRoom
  dsimp only
  cases hp : self.xactStateManagers (self.xactIdOf msg) with
  | none =>
    rw [hp] at hupdate
    exact congrArg some (hupdate _ rfl)
  | some p =>
    rw [hp] at hupdate
    unfold alone
    dsimp only
    split_ifs with hroom
    · exact congrArg some (hupdate _ rfl)
    · rfl

/-- A state manager makes a step, or cannot, as it does alone. -/
theorem family_stepProc (id : XactId) (a : Proc.Act XsMessage Answer)
    (ha : ∀ m, a ≠ .post m) :
    Machine.family (alone self.nodeId) self.xactStateManagers (id, a) =
      (self.stepProc id fun p => p.act XactStateManager.handle a).map
        Manager.xactStateManagers := by
  unfold Machine.family stepProc
  dsimp only
  cases hp : self.xactStateManagers id with
  | none =>
    cases a with
    | post m => exact absurd rfl (ha m)
    | _ => rfl
  | some p =>
    rw [alone_some ha]
    dsimp only
    cases hact : p.act XactStateManager.handle a with
    | none => rfl
    | some p' =>
      have hset : Function.update self.xactStateManagers id (some p') =
          (self.setProc id p').xactStateManagers := by
        funext x
        unfold setProc
        by_cases hx : x = id
        · subst hx
          rw [Function.update_self]
          exact (if_pos rfl).symm
        · rw [Function.update_of_ne hx]
          exact (if_neg hx).symm
      exact congrArg some hset

/-- One step of the manager is one step of the family. -/
theorem family_step (hn : self.nodeId = n) (a : Action) :
    Machine.family (alone n) self.xactStateManagers (route n self.xactIdCounter a) =
      if self.admits a then (self.step a).map Manager.xactStateManagers else none := by
  subst hn
  cases a with
  | message msg =>
    have hroute : route self.nodeId self.xactIdCounter (.message msg) =
        (self.xactIdOf msg, .post msg) := by cases msg <;> rfl
    rw [hroute]
    exact family_processMessage msg
  | take id => exact family_stepProc id .take (by simp)
  | answer id r => exact family_stepProc id (.answer r) (by simp)
  | stop id => exact family_stepProc id .cancel (by simp)

/-- A step of a state manager leaves the id and the counter of the node as they are. -/
theorem stepProc_frame {id : XactId} {f : XactProc → Option XactProc}
    (h : self.stepProc id f = some self') :
    self'.nodeId = self.nodeId ∧ self'.xactIdCounter = self.xactIdCounter := by
  obtain ⟨p, p', -, -, rfl⟩ := stepProc_cases h
  exact ⟨rfl, rfl⟩

theorem nodeId_step {a : Action} (h : self.step a = some self') : self'.nodeId = self.nodeId := by
  cases a with
  | message msg =>
    obtain rfl := Option.some.inj h
    unfold processMessage
    cases hp : self.xactStateManagers (self.xactIdOf msg) <;> simp only [hp] <;> rfl
  | take id => exact (stepProc_frame h).1
  | answer id r => exact (stepProc_frame h).1
  | stop id => exact (stepProc_frame h).1

theorem counter_step {a : Action} (h : self.step a = some self') :
    self'.xactIdCounter = counterOf self.xactIdCounter a := by
  cases a with
  | message msg =>
    obtain rfl := Option.some.inj h
    rw [processMessage_counter]
    cases msg <;> rfl
  | take id => exact (stepProc_frame h).2
  | answer id r => exact (stepProc_frame h).2
  | stop id => exact (stepProc_frame h).2

/-- A run that starts with an action of the manager starts with a step of the family. -/
theorem family_run_cons (hn : self.nodeId = n) (a : Action) (as : List Action) :
    Machine.run (Machine.family (alone n)) self.xactStateManagers
        (routes n self.xactIdCounter (a :: as)) =
      if self.admits a then (self.step a).bind fun self' =>
        Machine.run (Machine.family (alone n)) self'.xactStateManagers
          (routes n self'.xactIdCounter as)
      else none := by
  conv_lhs => unfold routes Machine.run
  rw [family_step hn a]
  split_ifs with hroom
  · cases hs : self.step a with
    | none => rfl
    | some self' =>
      rw [← counter_step hs]
      rfl
  · rfl

namespace Loop

theorem step_own {l : Loop} {a : Act} {b : Action} (h : a.own = some b) :
    l.step a = (l.manager.step b).map fun manager => { l with manager } := by
  cases a with
  | receive msg => exact absurd h (by simp [Act.own])
  | send => exact absurd h (by simp [Act.own])
  | _ =>
    obtain rfl := Option.some.inj h
    rfl

theorem handled_own {hand : Option XsMessage} {a : Act} {b : Action} (h : a.own = some b)
    (as : List Act) : handled hand (a :: as) = (handled hand as).map (b :: ·) := by
  cases a with
  | receive msg => exact absurd h (by simp [Act.own])
  | send => exact absurd h (by simp [Act.own])
  | _ =>
    obtain rfl := Option.some.inj h
    cases hand <;> rfl

theorem admits_own {m : Manager} {a : Act} {b : Action} (h : a.own = some b) :
    m.admits b = true := by
  cases a with
  | receive msg => exact absurd h (by simp [Act.own])
  | send => exact absurd h (by simp [Act.own])
  | _ =>
    obtain rfl := Option.some.inj h
    rfl

/-- The run of the family that belongs to what the acts make of the manager. -/
def familyRun (n : NodeId) (m : Manager) (actions : List Action) :
    Option (XactId → Option XactProc) :=
  Machine.run (Machine.family (alone n)) m.xactStateManagers (routes n m.xactIdCounter actions)

/-- An action that the channel does not take stops both. -/
theorem familyRun_full {m : Manager} (hn : m.nodeId = n) {b : Action} (hroom : m.admits b = false)
    (handled : Option (List Action)) :
    (handled.map (b :: ·)).bind (familyRun n m) = none := by
  cases handled with
  | none => rfl
  | some actions =>
    refine (family_run_cons hn b actions).trans ?_
    rw [hroom]
    rfl

/-- An action of the manager, and then the rest. -/
theorem familyRun_next {m : Manager} (hn : m.nodeId = n) {b : Action} (hroom : m.admits b = true)
    (hand : Option XsMessage) {as : List Act}
    (ih : ∀ m', m.step b = some m' → (handled hand as).bind (familyRun n m') =
      (Machine.run step ⟨m', hand⟩ as).map fun l => l.manager.xactStateManagers) :
    ((handled hand as).map (b :: ·)).bind (familyRun n m) =
      ((m.step b).bind fun m' => Machine.run step ⟨m', hand⟩ as).map
        fun l => l.manager.xactStateManagers := by
  have hcons : ∀ actions, familyRun n m (b :: actions) =
      (m.step b).bind fun m' => familyRun n m' actions := by
    intro actions
    refine (family_run_cons hn b actions).trans ?_
    rw [hroom]
    rfl
  cases hb : m.step b with
  | none =>
    cases handled hand as with
    | none => rfl
    | some actions =>
      refine (hcons actions).trans ?_
      rw [hb]
      rfl
  | some m' =>
    rw [Option.bind_some, ← ih m' hb]
    cases handled hand as with
    | none => rfl
    | some actions =>
      refine (hcons actions).trans ?_
      rw [hb]
      rfl

/-- A run of the node is a run of the family. -/
theorem family_run {l : Loop} (hn : l.manager.nodeId = n) (as : List Act) :
    (handled l.hand as).bind (familyRun n l.manager) =
      (Machine.run step l as).map fun l' => l'.manager.xactStateManagers := by
  induction as generalizing l with
  | nil =>
    obtain ⟨manager, hand⟩ := l
    cases hand <;> rfl
  | cons a as ih =>
    obtain ⟨manager, hand⟩ := l
    have hown : ∀ b, a.own = some b → (handled hand (a :: as)).bind (familyRun n manager) =
        (Machine.run step ⟨manager, hand⟩ (a :: as)).map fun l' => l'.manager.xactStateManagers := by
      intro b hb
      have hnext := familyRun_next hn (admits_own hb) hand fun m' hm' =>
        ih (l := ⟨m', hand⟩) ((nodeId_step hm').trans hn)
      rw [handled_own hb, Machine.run_cons, step_own hb]
      refine hnext.trans ?_
      cases manager.step b <;> rfl
    cases a with
    | take id => exact hown _ rfl
    | answer id r => exact hown _ rfl
    | stop id => exact hown _ rfl
    | receive msg =>
      cases hand with
      | none => exact ih (l := ⟨manager, some msg⟩) hn
      | some msg' => rfl
    | send =>
      cases hand with
      | none => rfl
      | some msg =>
        rw [Machine.run_cons]
        unfold step handled
        dsimp only
        cases hroom : manager.hasRoom msg with
        | true =>
          exact familyRun_next hn (b := .message msg) hroom none fun m' hm' =>
            ih (l := ⟨m', none⟩) ((nodeId_step hm').trans hn)
        | false => exact familyRun_full hn (b := .message msg) hroom (handled none as)

/-- While the loop waits for room in a channel, only the state managers of other transactions can make
a step, and the channel stays full. -/
theorem blocked_step {l l' : Loop} {msg : XsMessage} (hhand : l.hand = some msg)
    (hfull : l.manager.hasRoom msg = false) {a : Act}
    (ha : a.mover ≠ some (l.manager.xactIdOf msg)) (h : l.step a = some l') :
    l'.hand = some msg ∧ l'.manager.hasRoom msg = false ∧
      l'.manager.xactIdOf msg = l.manager.xactIdOf msg ∧ a.mover.isSome = true := by
  have hproc : ∀ {b : Action} {id : XactId} {f : XactProc → Option XactProc},
      (∀ m : Manager, m.step b = m.stepProc id f) → id ≠ l.manager.xactIdOf msg →
      ((l.manager.step b).map fun manager => ({ l with manager } : Loop)) = some l' →
      l'.hand = some msg ∧ l'.manager.hasRoom msg = false ∧
        l'.manager.xactIdOf msg = l.manager.xactIdOf msg := by
    intro b id f hb hid h
    obtain ⟨m', hm', rfl⟩ := Option.map_eq_some_iff.mp h
    rw [hb] at hm'
    obtain ⟨p, p', -, -, rfl⟩ := stepProc_cases hm'
    have hsame : (l.manager.setProc id p').xactIdOf msg = l.manager.xactIdOf msg := by
      cases msg <;> rfl
    refine ⟨hhand, ?_, hsame⟩
    unfold hasRoom
    rw [hsame]
    have hother : (l.manager.setProc id p').xactStateManagers (l.manager.xactIdOf msg) =
        l.manager.xactStateManagers (l.manager.xactIdOf msg) := if_neg hid.symm
    rw [hother]
    exact hfull
  cases a with
  | receive msg' =>
    obtain ⟨hnone, -⟩ := Option.ite_none_right_eq_some.mp h
    rw [hhand] at hnone
    exact absurd hnone (by simp)
  | send =>
    unfold step at h
    simp only [hhand, hfull] at h
    exact absurd h (by simp)
  | take id =>
    obtain ⟨h₁, h₂, h₃⟩ := hproc (fun _ => rfl) (fun heq => ha (congrArg some heq)) h
    exact ⟨h₁, h₂, h₃, rfl⟩
  | answer id r =>
    obtain ⟨h₁, h₂, h₃⟩ := hproc (fun _ => rfl) (fun heq => ha (congrArg some heq)) h
    exact ⟨h₁, h₂, h₃, rfl⟩
  | stop id =>
    obtain ⟨h₁, h₂, h₃⟩ := hproc (fun _ => rfl) (fun heq => ha (congrArg some heq)) h
    exact ⟨h₁, h₂, h₃, rfl⟩

theorem blocked_run {l l' : Loop} {msg : XsMessage} (hhand : l.hand = some msg)
    (hfull : l.manager.hasRoom msg = false) {as : List Act}
    (has : ∀ a ∈ as, a.mover ≠ some (l.manager.xactIdOf msg))
    (h : Machine.run step l as = some l') :
    l'.hand = some msg ∧ ∀ a ∈ as, a.mover.isSome = true := by
  induction as generalizing l with
  | nil =>
    obtain rfl := Option.some.inj h
    exact ⟨hhand, by simp⟩
  | cons a as ih =>
    obtain ⟨hfirst, hrest⟩ := List.forall_mem_cons.mp has
    unfold Machine.run at h
    cases hs : l.step a with
    | none =>
      rw [hs] at h
      exact absurd h (by simp)
    | some l₁ =>
      rw [hs] at h
      obtain ⟨hhand₁, hfull₁, hid, hmover⟩ := blocked_step hhand hfull hfirst hs
      obtain ⟨hhand', hall⟩ := ih hhand₁ hfull₁ (by rw [hid]; exact hrest) h
      exact ⟨hhand', List.forall_mem_cons.mpr ⟨hmover, hall⟩⟩

end Loop

/-- **Transactions disturb each other only through the loop.** A node can go through a sequence of
acts exactly when its loop receives and sends by turns and the state manager of every transaction can
go through its share alone, with the bound of its channel, and it leaves every one of them where it is
alone. While the channel of one of them is full, the loop waits with its message: it hands nothing over
to any other before that state manager makes a step. -/
theorem transactions_isolated (n : NodeId) (as : List Loop.Act) :
    ((Machine.run Loop.step (Loop.new n) as).isSome = true ↔
      ∃ actions, Loop.handled none as = some actions ∧ ∀ id,
        (Machine.run (alone n id) none (Machine.share id (routes n 0 actions))).isSome = true) ∧
    ∀ l, Machine.run Loop.step (Loop.new n) as = some l →
      (∃ actions, Loop.handled none as = some actions ∧ ∀ id,
        Machine.run (alone n id) none (Machine.share id (routes n 0 actions)) =
          some (l.manager.xactStateManagers id)) ∧
      ∀ msg, l.hand = some msg → l.manager.hasRoom msg = false → ∀ as' l',
        (∀ a ∈ as', a.mover ≠ some (l.manager.xactIdOf msg)) →
        Machine.run Loop.step l as' = some l' →
        l'.hand = some msg ∧ ∀ a ∈ as', a.mover.isSome = true := by
  have hnode : (Loop.new n).manager.nodeId = n := rfl
  have hfamily : (Loop.handled none as).bind (Loop.familyRun n (Manager.new n)) =
      (Machine.run Loop.step (Loop.new n) as).map fun l' => l'.manager.xactStateManagers :=
    Loop.family_run hnode as
  refine ⟨?_, fun l hl => ⟨?_, fun msg hhand hfull as' l' has' hrun =>
    Loop.blocked_run hhand hfull has' hrun⟩⟩
  · constructor
    · intro hrun
      obtain ⟨l, hl⟩ := Option.isSome_iff_exists.mp hrun
      rw [hl] at hfamily
      obtain ⟨actions, hactions, hfamily⟩ := Option.bind_eq_some_iff.mp hfamily
      exact ⟨actions, hactions,
        Machine.family_isSome_iff.mp (Option.isSome_iff_exists.mpr ⟨_, hfamily⟩)⟩
    · rintro ⟨actions, hactions, hall⟩
      have hrun := Machine.family_isSome_iff.mpr hall
      obtain ⟨procs, hprocs⟩ := Option.isSome_iff_exists.mp hrun
      have hmap : some procs = (Machine.run Loop.step (Loop.new n) as).map
          fun l' => l'.manager.xactStateManagers := by
        rw [← hfamily, hactions]
        exact hprocs.symm
      rw [← Option.isSome_map (f := fun l' : Loop => l'.manager.xactStateManagers), ← hmap]
      rfl
  · rw [hl] at hfamily
    obtain ⟨actions, hactions, hrun⟩ := Option.bind_eq_some_iff.mp hfamily
    exact ⟨actions, hactions, fun id => Machine.run_of_family hrun id⟩

/-- A vote on the transaction 9. -/
def Loop.vote : XsMessage := .vote { «from» := 1, xactId := 9, rollbackReason := none }

/-- A client hands a transaction over. Then votes on another one fill the channel of its state
manager, and one more is received. -/
def Loop.fullRun : List Loop.Act :=
  [.receive (.localXact [] ⟨0⟩), .send] ++
    (List.replicate channelCapacity [.receive vote, .send]).flatten ++ [.receive vote]

/-- The state manager of the first transaction goes on, but nothing is handed over to it. -/
theorem transactions_isolated_full :
    ∃ l l', Machine.run Loop.step (Loop.new ⟨0⟩) Loop.fullRun = some l ∧
      l.manager.hasRoom Loop.vote = false ∧
      Machine.run Loop.step l [.take (.new 1 ⟨0⟩)] = some l' ∧ l'.hand = some Loop.vote := by
  have hrun : (Machine.run Loop.step (Loop.new ⟨0⟩) Loop.fullRun).map (fun l =>
      (l.hand, l.manager.hasRoom Loop.vote, l.manager.xactIdOf Loop.vote,
        (Machine.run Loop.step l [.take (.new 1 ⟨0⟩)]).isSome)) =
      some (some Loop.vote, false, ⟨9⟩, true) := by decide +kernel
  obtain ⟨l, hl, heq⟩ := Option.map_eq_some_iff.mp hrun
  obtain ⟨hhand, heq⟩ := Prod.mk.inj heq
  obtain ⟨hfull, heq⟩ := Prod.mk.inj heq
  obtain ⟨hid, hsome⟩ := Prod.mk.inj heq
  obtain ⟨l', hl'⟩ := Option.isSome_iff_exists.mp hsome
  have hother : ∀ a ∈ [Loop.Act.take (.new 1 ⟨0⟩)],
      a.mover ≠ some (l.manager.xactIdOf Loop.vote) := by
    rw [hid]
    decide
  exact ⟨l, l', hl, hfull, hl',
    (((transactions_isolated ⟨0⟩ _).2 l hl).2 Loop.vote hhand hfull _ l' hother hl').1⟩

end Manager

end Sunstorm
