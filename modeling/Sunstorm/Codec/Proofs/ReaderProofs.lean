import Sunstorm.Codec.Reader
import Mathlib.Data.List.Induction
import Mathlib.Tactic.Ring

/-!
# Proofs: the languages of composed readers

`Reads` and `FailsOnly` for each way to build a reader, and the two round trips of big-endian
numbers.
-/

namespace Codec

variable {τ φ α β : Type}

/-! ## Big-endian numbers -/

theorem ofBe_append (bs : List UInt8) (b : UInt8) : ofBe (bs ++ [b]) = ofBe bs * 256 + b.toNat := by
  simp [ofBe]

@[simp] theorem toBe_length (n x : Nat) : (toBe n x).length = n := by
  induction n generalizing x with
  | zero => rfl
  | succ n ih => simp [toBe, ih]

/-- Writing and reading back keeps the number modulo the width. -/
theorem ofBe_toBe (n x : Nat) : ofBe (toBe n x) = x % 256 ^ n := by
  induction n generalizing x with
  | zero => simp [toBe, ofBe, Nat.mod_one]
  | succ n ih =>
    rw [toBe, ofBe_append, ih, pow_succ', Nat.mod_mul, UInt8.toNat_ofNat']
    ring

/-- A number that fits the width is read back. -/
theorem ofBe_toBe_of_lt {n x : Nat} (h : x < 256 ^ n) : ofBe (toBe n x) = x := by
  rw [ofBe_toBe, Nat.mod_eq_of_lt h]

/-- Reading and writing back keeps the bytes. -/
theorem toBe_ofBe (bs : List UInt8) : toBe bs.length (ofBe bs) = bs := by
  induction bs using List.reverseRecOn with
  | nil => rfl
  | append_singleton bs b ih =>
    have hb := b.toNat_lt
    have hdiv : ofBe (bs ++ [b]) / 256 = ofBe bs := by rw [ofBe_append]; omega
    have hmod : UInt8.ofNat (ofBe (bs ++ [b])) = b := by
      apply UInt8.toNat_inj.mp
      rw [ofBe_append, UInt8.toNat_ofNat']
      omega
    rw [List.length_append, List.length_singleton, toBe, hdiv, hmod, ih]

theorem ofBe_lt (bs : List UInt8) : ofBe bs < 256 ^ bs.length := by
  induction bs using List.reverseRecOn with
  | nil => simp [ofBe]
  | append_singleton bs b ih =>
    have hb := b.toNat_lt
    rw [ofBe_append, List.length_append, List.length_singleton, pow_succ]
    omega

/-! ## Words -/

@[simp] theorem words_nil {E : α → List τ → Prop} {w : List τ} : Words E [] w ↔ w = [] := by
  constructor
  · rintro ⟨ws, hws, rfl⟩
    rw [List.forall₂_nil_left_iff.mp hws]
    rfl
  · rintro rfl
    exact ⟨[], List.Forall₂.nil, rfl⟩

theorem words_cons {E : α → List τ → Prop} {a : α} {as : List α} {w : List τ} :
    Words E (a :: as) w ↔ ∃ u v, E a u ∧ Words E as v ∧ w = u ++ v := by
  constructor
  · rintro ⟨ws, hws, rfl⟩
    obtain ⟨u, vs, hu, hvs, rfl⟩ := List.forall₂_cons_left_iff.mp hws
    exact ⟨u, vs.flatten, hu, ⟨vs, hvs, rfl⟩, rfl⟩
  · rintro ⟨u, v, hu, ⟨vs, hvs, rfl⟩, rfl⟩
    exact ⟨u :: vs, List.Forall₂.cons hu hvs, rfl⟩

/-! ## `Reads` -/

theorem reader_pure_apply (a : α) (b : List τ) : (pure a : Reader τ φ α) b = .ok (a, b) := rfl

theorem reader_bind_ok {p : Reader τ φ α} {f : α → Reader τ φ β} {b rest : List τ} {a : α}
    (h : p b = .ok (a, rest)) : (p >>= f) b = f a rest := by
  simp only [bind, h]

theorem reader_bind_error {p : Reader τ φ α} {f : α → Reader τ φ β} {b : List τ} {e : φ}
    (h : p b = .error e) : (p >>= f) b = .error e := by
  simp only [bind, h]

/-- The two outcomes of a sequence of readers that returns. -/
theorem reader_bind_eq_ok {p : Reader τ φ α} {f : α → Reader τ φ β} {b : List τ}
    {r : β × List τ} : (p >>= f) b = .ok r ↔ ∃ a rest, p b = .ok (a, rest) ∧ f a rest = .ok r := by
  cases hp : p b with
  | ok x =>
    obtain ⟨a, rest⟩ := x
    rw [reader_bind_ok hp]
    constructor
    · exact fun h => ⟨a, rest, rfl, h⟩
    · rintro ⟨a', rest', heq, h⟩
      obtain ⟨rfl, rfl⟩ := Prod.mk.inj (Except.ok.inj heq)
      exact h
  | error e =>
    rw [reader_bind_error hp]
    constructor
    · intro h; exact absurd h (by simp)
    · rintro ⟨a, rest, heq, -⟩; exact absurd heq (by simp)

theorem reads_pure (a : α) :
    Reads (pure a : Reader τ φ α) (fun x w => x = a ∧ w = []) := by
  intro b x rest
  rw [reader_pure_apply]
  constructor
  · intro h
    obtain ⟨rfl, rfl⟩ := Prod.mk.inj (Except.ok.inj h)
    exact ⟨[], ⟨rfl, rfl⟩, rfl⟩
  · rintro ⟨w, ⟨rfl, rfl⟩, rfl⟩
    rfl

theorem reads_fail (e : φ) : Reads (Reader.fail e : Reader τ φ α) (fun _ _ => False) := by
  intro b x rest
  constructor
  · intro h; exact absurd h (by simp [Reader.fail])
  · rintro ⟨w, hw, -⟩; exact hw.elim

theorem Reads.bind {p : Reader τ φ α} {f : α → Reader τ φ β} {E : α → List τ → Prop}
    {F : α → β → List τ → Prop} (hp : Reads p E) (hf : ∀ a, Reads (f a) (F a)) :
    Reads (p >>= f) (fun y w => ∃ a u v, E a u ∧ F a y v ∧ w = u ++ v) := by
  intro b y rest
  rw [reader_bind_eq_ok]
  constructor
  · rintro ⟨a, mid, h1, h2⟩
    obtain ⟨u, hu, rfl⟩ := (hp b a mid).mp h1
    obtain ⟨v, hv, rfl⟩ := (hf a mid y rest).mp h2
    exact ⟨u ++ v, ⟨a, u, v, hu, hv, rfl⟩, by simp⟩
  · rintro ⟨w, ⟨a, u, v, hu, hv, rfl⟩, rfl⟩
    exact ⟨a, v ++ rest, (hp _ a _).mpr ⟨u, hu, by simp⟩, (hf a _ y rest).mpr ⟨v, hv, rfl⟩⟩

theorem Reads.mapFailure {p : Reader τ φ α} {E : α → List τ → Prop} (hp : Reads p E)
    (f : φ → φ) : Reads (p.mapFailure f) E := by
  intro b a rest
  rw [← hp b a rest]
  unfold Reader.mapFailure
  cases p b <;> simp [Except.mapError]

theorem Reads.congr {p : Reader τ φ α} {E E' : α → List τ → Prop} (hp : Reads p E)
    (h : ∀ a w, E a w ↔ E' a w) : Reads p E' := by
  intro b a rest
  rw [hp b a rest]
  simp only [h]

theorem reads_exactly (short : φ) (n : Nat) :
    Reads (Reader.exactly short n) (fun (ts w : List τ) => ts.length = n ∧ w = ts) := by
  intro b ts rest
  unfold Reader.exactly
  by_cases hb : n ≤ b.length
  · simp only [if_pos hb, Except.ok.injEq, Prod.mk.injEq]
    constructor
    · rintro ⟨rfl, rfl⟩
      exact ⟨b.take n, ⟨by simp [hb], rfl⟩, by simp⟩
    · rintro ⟨w, ⟨rfl, rfl⟩, rfl⟩
      simp
  · simp only [if_neg hb]
    constructor
    · intro h
      exact absurd h (by simp)
    · rintro ⟨w, ⟨rfl, rfl⟩, rfl⟩
      exact absurd (by simp) hb

theorem upTo_append [DecidableEq τ] {short : φ} {stop : τ} {ts : List τ} (h : stop ∉ ts)
    (rest : List τ) : Reader.upTo short stop (ts ++ stop :: rest) = .ok (ts, rest) := by
  induction ts with
  | nil => rw [List.nil_append, Reader.upTo, if_pos rfl]
  | cons t ts ih =>
    have ht : t ≠ stop := fun heq => h (heq ▸ List.mem_cons_self)
    rw [List.cons_append, Reader.upTo, if_neg ht, ih fun hmem => h (List.mem_cons_of_mem t hmem)]

theorem upTo_ok [DecidableEq τ] {short : φ} {stop : τ} {b ts rest : List τ}
    (h : Reader.upTo short stop b = .ok (ts, rest)) : stop ∉ ts ∧ b = ts ++ stop :: rest := by
  induction b generalizing ts with
  | nil => exact absurd h (by simp [Reader.upTo])
  | cons t b ih =>
    unfold Reader.upTo at h
    by_cases ht : t = stop
    · rw [if_pos ht] at h
      obtain ⟨rfl, rfl⟩ := Prod.mk.inj (Except.ok.inj h)
      exact ⟨List.not_mem_nil, by rw [ht, List.nil_append]⟩
    · rw [if_neg ht] at h
      cases hb : Reader.upTo short stop b with
      | error e =>
        rw [hb] at h
        exact absurd h (by simp)
      | ok x =>
        rw [hb] at h
        obtain ⟨rfl, rfl⟩ := Prod.mk.inj (Except.ok.inj h)
        obtain ⟨hstop, heq⟩ := ih hb
        exact ⟨by simp [Ne.symm ht, hstop], by rw [heq, List.cons_append]⟩

/-- What ends at the first `stop` holds none, and is read back whatever follows. -/
theorem reads_upTo [DecidableEq τ] (short : φ) (stop : τ) :
    Reads (Reader.upTo short stop) (fun ts w => stop ∉ ts ∧ w = ts ++ [stop]) := by
  intro b ts rest
  constructor
  · intro h
    obtain ⟨hstop, rfl⟩ := upTo_ok h
    exact ⟨ts ++ [stop], ⟨hstop, rfl⟩, by rw [List.append_assoc]; rfl⟩
  · rintro ⟨w, ⟨hstop, rfl⟩, rfl⟩
    rw [List.append_assoc]
    exact upTo_append hstop rest

theorem Reads.through {p : Reader τ φ α} {E : α → List τ → Prop} (hp : Reads p E) (bad : φ)
    (f : α → Option β) :
    Reads (p.through bad f) (fun y w => ∃ x, f x = some y ∧ E x w) := by
  intro b y rest
  unfold Reader.through
  rw [reader_bind_eq_ok]
  constructor
  · rintro ⟨x, mid, hx, hy⟩
    obtain ⟨w, hw, rfl⟩ := (hp b x mid).mp hx
    cases hf : f x with
    | none =>
      rw [hf] at hy
      exact absurd hy (by simp [Reader.fail])
    | some y' =>
      rw [hf] at hy
      obtain ⟨rfl, rfl⟩ := Prod.mk.inj (Except.ok.inj hy)
      exact ⟨w, ⟨x, hf, hw⟩, rfl⟩
  · rintro ⟨w, ⟨x, hf, hw⟩, rfl⟩
    refine ⟨x, rest, (hp _ x rest).mpr ⟨w, hw, rfl⟩, ?_⟩
    rw [hf]
    rfl

/-- Reading a counted list: one word for each value. -/
theorem reads_times {p : List α → Reader τ φ α} {E : α → List τ → Prop}
    (hp : ∀ acc, Reads (p acc) E) (n : Nat) (acc : List α) :
    Reads (Reader.times p n acc)
      (fun ys w => ∃ xs, ys = acc ++ xs ∧ xs.length = n ∧ Words E xs w) := by
  induction n generalizing acc with
  | zero =>
    refine (reads_pure acc).congr fun ys w => ?_
    constructor
    · rintro ⟨rfl, rfl⟩
      exact ⟨[], by simp, rfl, words_nil.mpr rfl⟩
    · rintro ⟨xs, rfl, hlen, hw⟩
      rw [List.length_eq_zero_iff] at hlen
      subst hlen
      exact ⟨by simp, words_nil.mp hw⟩
  | succ n ih =>
    refine ((hp acc).bind fun a => ih (acc ++ [a])).congr fun ys w => ?_
    constructor
    · rintro ⟨a, u, v, hu, ⟨xs, rfl, hlen, hv⟩, rfl⟩
      exact ⟨a :: xs, by simp, by simp [hlen], words_cons.mpr ⟨u, v, hu, hv, rfl⟩⟩
    · rintro ⟨xs, rfl, hlen, hw⟩
      cases xs with
      | nil => exact absurd hlen (by simp)
      | cons a xs =>
        obtain ⟨u, v, hu, hv, rfl⟩ := words_cons.mp hw
        exact ⟨a, u, v, hu, ⟨xs, by simp, by simpa using hlen, hv⟩, rfl⟩

/-- Reading to the end: enough fuel is the number of tokens, as no word is empty. -/
theorem untilEmpty_iff {p : List α → Reader τ φ α} {E : α → List τ → Prop}
    (hp : ∀ acc, Reads (p acc) E) (hE : ∀ a, ¬ E a []) (stuck : φ) (fuel : Nat) (acc : List α)
    (b : List τ) (hb : b.length ≤ fuel) (ys : List α) (rest : List τ) :
    Reader.untilEmpty stuck p fuel acc b = .ok (ys, rest) ↔
      rest = [] ∧ ∃ xs, ys = acc ++ xs ∧ Words E xs b := by
  induction fuel generalizing acc b with
  | zero =>
    have hb0 : b = [] := List.length_eq_zero_iff.mp (by omega)
    subst hb0
    simp only [Reader.untilEmpty, if_true, Except.ok.injEq, Prod.mk.injEq]
    constructor
    · rintro ⟨rfl, rfl⟩
      exact ⟨rfl, [], by simp, words_nil.mpr rfl⟩
    · rintro ⟨rfl, xs, rfl, ws, hws, hnil⟩
      cases xs with
      | nil => exact ⟨by simp, rfl⟩
      | cons a xs =>
        obtain ⟨u, v, hu, -, hw⟩ := words_cons.mp ⟨ws, hws, hnil⟩
        have hu0 : u = [] := (List.append_eq_nil_iff.mp hw.symm).1
        exact absurd (hu0 ▸ hu) (hE a)
  | succ fuel ih =>
    unfold Reader.untilEmpty
    by_cases hb0 : b = []
    · subst hb0
      simp only [if_true, Except.ok.injEq, Prod.mk.injEq]
      constructor
      · rintro ⟨rfl, rfl⟩
        exact ⟨rfl, [], by simp, words_nil.mpr rfl⟩
      · rintro ⟨rfl, xs, rfl, hw⟩
        cases xs with
        | nil => exact ⟨by simp, rfl⟩
        | cons a xs =>
          obtain ⟨u, v, hu, -, hw⟩ := words_cons.mp hw
          have hu0 : u = [] := (List.append_eq_nil_iff.mp hw.symm).1
          exact absurd (hu0 ▸ hu) (hE a)
    · rw [if_neg hb0]
      -- a word read off a non-empty buffer leaves a shorter one
      have hshort : ∀ {a : α} {u v : List τ}, E a u → b = u ++ v → v.length ≤ fuel := by
        intro a u v hu huv
        have hu0 : u ≠ [] := fun h => hE a (h ▸ hu)
        have hpos := List.length_pos_iff.mpr hu0
        rw [huv, List.length_append] at hb
        omega
      cases hpb : p acc b with
      | error e =>
        refine ⟨fun h => absurd h (by simp), ?_⟩
        rintro ⟨-, xs, -, hw⟩
        cases xs with
        | nil => exact absurd (words_nil.mp hw) hb0
        | cons a xs =>
          obtain ⟨u, v, hu, -, rfl⟩ := words_cons.mp hw
          have := (hp acc (u ++ v) a v).mpr ⟨u, hu, rfl⟩
          rw [hpb] at this
          exact absurd this (by simp)
      | ok x =>
        obtain ⟨a, mid⟩ := x
        obtain ⟨u, hu, hbu⟩ := (hp acc b a mid).mp hpb
        simp only
        rw [ih (acc ++ [a]) mid (hshort hu hbu)]
        constructor
        · rintro ⟨rfl, xs, rfl, hw⟩
          exact ⟨rfl, a :: xs, by simp, words_cons.mpr ⟨u, mid, hu, hw, hbu⟩⟩
        · rintro ⟨rfl, xs, rfl, hw⟩
          cases xs with
          | nil => exact absurd (words_nil.mp hw) hb0
          | cons a' xs =>
            obtain ⟨u', v', hu', hv', hbu'⟩ := words_cons.mp hw
            have h' := (hp acc b a' v').mpr ⟨u', hu', hbu'⟩
            rw [hpb] at h'
            obtain ⟨rfl, rfl⟩ := Prod.mk.inj (Except.ok.inj h')
            exact ⟨rfl, xs, by simp, hv'⟩

/-! ## `FailsOnly` -/

theorem failsOnly_pure (G : φ → Prop) (a : α) : FailsOnly (pure a : Reader τ φ α) G := by
  intro b e h
  exact absurd h (by simp [reader_pure_apply])

theorem failsOnly_fail {G : φ → Prop} {e : φ} (h : G e) :
    FailsOnly (Reader.fail e : Reader τ φ α) G := by
  intro b e' he
  rw [← Except.error.inj he]
  exact h

theorem FailsOnly.bind {G : φ → Prop} {p : Reader τ φ α} {f : α → Reader τ φ β}
    (hp : FailsOnly p G) (hf : ∀ a, FailsOnly (f a) G) : FailsOnly (p >>= f) G := by
  intro b e h
  cases hpb : p b with
  | ok x =>
    obtain ⟨a, rest⟩ := x
    rw [reader_bind_ok hpb] at h
    exact hf a rest e h
  | error e' =>
    rw [reader_bind_error hpb] at h
    rw [← Except.error.inj h]
    exact hp b e' hpb

theorem FailsOnly.mapFailure {G : φ → Prop} {p : Reader τ φ α} (hp : FailsOnly p G) {f : φ → φ}
    (hf : ∀ e, G e → G (f e)) : FailsOnly (p.mapFailure f) G := by
  intro b e h
  unfold Reader.mapFailure at h
  cases hpb : p b with
  | ok x => rw [hpb] at h; exact absurd h (by simp [Except.mapError])
  | error e' =>
    rw [hpb] at h
    rw [← Except.error.inj h]
    exact hf e' (hp b e' hpb)

theorem failsOnly_times {G : φ → Prop} {p : List α → Reader τ φ α}
    (hp : ∀ acc, FailsOnly (p acc) G) (n : Nat) (acc : List α) :
    FailsOnly (Reader.times p n acc) G := by
  induction n generalizing acc with
  | zero => exact failsOnly_pure G acc
  | succ n ih => exact (hp acc).bind fun a => ih (acc ++ [a])

/-- With enough fuel, reading to the end fails only as its items do. -/
theorem untilEmpty_failsOnly {G : φ → Prop} {p : List α → Reader τ φ α} {E : α → List τ → Prop}
    (hp : ∀ acc, Reads (p acc) E) (hE : ∀ a, ¬ E a []) (hG : ∀ acc, FailsOnly (p acc) G)
    (stuck : φ) (fuel : Nat) (acc : List α) (b : List τ) (hb : b.length ≤ fuel) (e : φ)
    (h : Reader.untilEmpty stuck p fuel acc b = .error e) : G e := by
  induction fuel generalizing acc b with
  | zero =>
    rw [List.length_eq_zero_iff.mp (Nat.le_zero.mp hb)] at h
    exact absurd h (by simp [Reader.untilEmpty])
  | succ fuel ih =>
    unfold Reader.untilEmpty at h
    by_cases hb0 : b = []
    · rw [if_pos hb0] at h
      exact absurd h (by simp)
    · rw [if_neg hb0] at h
      cases hpb : p acc b with
      | error e' =>
        rw [hpb] at h
        rw [← Except.error.inj h]
        exact hG acc b e' hpb
      | ok x =>
        obtain ⟨a, mid⟩ := x
        rw [hpb] at h
        obtain ⟨u, hu, rfl⟩ := (hp acc b a mid).mp hpb
        have hpos := List.length_pos_iff.mpr (fun h0 : u = [] => hE a (h0 ▸ hu))
        rw [List.length_append] at hb
        exact ih (acc ++ [a]) mid (by omega) h

end Codec
