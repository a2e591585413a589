import Mathlib.Data.Int.Basic
import Mathlib.Data.List.Pairwise
import Sunstorm.Codec.Proofs.DecimalProofs
import Sunstorm.Tools.Neonclone

/-!
# Proofs: cloning a neon directory

A tidy directory can be cloned any number of times, also from its clones: what counts is how far a
clone has been moved in all. The ids of the safekeepers are never used twice, because they are moved
by multiples of their number; the ports are used twice where they are too close to each other.
-/

namespace Sunstorm

namespace Neonclone

open Codec

/-! ## Numbers and addresses -/

theorem not_of_isDigit {c d : Char} (hc : c.isDigit = true) (hd : d.isDigit = false) : c ≠ d := by
  rintro rfl
  rw [hc] at hd
  exact absurd hd (by simp)

theorem isSpace_of_isDigit {c : Char} (hc : c.isDigit = true) : isSpace c = false := by
  have h : 48 ≤ c.toNat ∧ c.toNat ≤ 57 := by
    simp only [Char.isDigit, Bool.and_eq_true, decide_eq_true_eq] at hc
    exact ⟨hc.1, hc.2⟩
  simp only [isSpace, Bool.or_eq_false_iff, Bool.and_eq_false_iff, decide_eq_false_iff_not]
  omega

theorem readDigits_repr (m : Nat) : readDigits (Nat.repr m).toList = some (m : Int) := by
  have hdigit : ∀ c ∈ (Nat.repr m).toList, c.isDigit = true := fun c hc => isDigit_of_mem_repr hc
  have hfree : '_' ∉ (Nat.repr m).toList := fun h => absurd (hdigit _ h) (by decide)
  have hfilter : (Nat.repr m).toList.filter (fun c => c ≠ '_') = (Nat.repr m).toList := by
    rw [List.filter_eq_self]
    intro c hc
    simpa using not_of_isDigit (hdigit c hc) (by decide)
  have hne : (Nat.repr m).toList ≠ [] := by
    rw [Nat.toList_repr]
    exact Nat.toDigits_ne_nil
  have hall : (Nat.repr m).toList.all Char.isDigit = true := List.all_eq_true.mpr hdigit
  have hread : Nat.ofDigitChars 10 (Nat.repr m).toList 0 = m := by
    rw [Nat.toList_repr]
    exact Nat.ofDigitChars_ten_toDigits
  unfold readDigits
  rw [List.splitOn_eq_singleton hfree, hfilter, hread, if_pos]
  simp only [List.all_cons, List.all_nil, hall, Bool.and_true, decide_eq_true_eq]
  exact hne

theorem toString_negSucc (m : Nat) : toString (Int.negSucc m) = "-" ++ Nat.repr (m + 1) := rfl

/-- The characters of a number are digits, up to a sign in front of them. -/
theorem toList_toString (k : Int) :
    ∃ m : Nat, (toString k).toList = (Nat.repr m).toList ∧ k = m ∨
      (toString k).toList = '-' :: (Nat.repr m).toList ∧ k = -(m : Int) := by
  cases k with
  | ofNat m => exact ⟨m, Or.inl ⟨rfl, rfl⟩⟩
  | negSucc m =>
    refine ⟨m + 1, Or.inr ⟨?_, rfl⟩⟩
    rw [toString_negSucc, String.toList_append]
    rfl

theorem not_mem_toString {c : Char} (hc : c.isDigit = false) (hsign : c ≠ '-') (k : Int) :
    c ∉ (toString k).toList := by
  have hdigits : ∀ m : Nat, c ∉ (Nat.repr m).toList := by
    intro m hm
    rw [isDigit_of_mem_repr hm] at hc
    exact absurd hc (by simp)
  obtain ⟨m, ⟨heq, -⟩ | ⟨heq, -⟩⟩ := toList_toString k
  · rw [heq]
    exact hdigits m
  · rw [heq, List.mem_cons]
    rintro (h | h)
    · exact hsign h
    · exact hdigits m h

theorem dropWhile_of_free {p : Char → Bool} {cs : List Char} (h : ∀ c ∈ cs, p c = false) :
    cs.dropWhile p = cs := by
  cases cs with
  | nil => rfl
  | cons c cs => rw [List.dropWhile_cons, h c List.mem_cons_self, if_neg Bool.false_ne_true]

/-- A number that was written is read back. -/
theorem readInt_toString (k : Int) : readInt (toString k) = some k := by
  have hspace : ∀ c ∈ (toString k).toList, isSpace c = false := by
    intro c hc
    by_cases hdigit : c.isDigit = true
    · exact isSpace_of_isDigit hdigit
    · by_cases hsign : c = '-'
      · rw [hsign]
        decide
      · exact absurd hc (not_mem_toString (by simpa using hdigit) hsign k)
  have hstrip : (strip (toString k)).toList = (toString k).toList := by
    rw [strip, dropWhile_of_free hspace,
      dropWhile_of_free fun c hc => hspace c (List.mem_reverse.mp hc), List.reverse_reverse,
      String.ofList_toList]
  rw [readInt, hstrip]
  obtain ⟨m, ⟨heq, rfl⟩ | ⟨heq, rfl⟩⟩ := toList_toString k
  · rw [heq]
    have hread := readDigits_repr m
    cases hcs : (Nat.repr m).toList with
    | nil =>
      have hnil : readDigits [] = none := by decide
      rw [hcs, hnil] at hread
      exact absurd hread (by simp)
    | cons c cs =>
      have hdigit : c.isDigit = true := isDigit_of_mem_repr (hcs ▸ List.mem_cons_self)
      rw [readSigned, if_neg (not_of_isDigit hdigit (by decide)),
        if_neg (not_of_isDigit hdigit (by decide)), ← hcs, hread]
  · rw [heq, readSigned, if_pos rfl, readDigits_repr]
    rfl

theorem skName_injective : Function.Injective skName := by
  intro k l h
  have htext := (String.append_right_inj "sk").mp h
  have hread := readInt_toString k
  rw [htext, readInt_toString] at hread
  exact (Option.some.inj hread).symm

/-- An address that was written is read back. -/
theorem hostAndPort_append {host : String} (hhost : ':' ∉ host.toList) (port : Int) :
    hostAndPort (host ++ ":" ++ toString port) = some (host, port) := by
  have hfree : ':' ∉ (toString port).toList := not_mem_toString (by decide) (by decide) port
  have hsplit : (host ++ ":" ++ toString port).toList.splitOn ':' =
      [host.toList, (toString port).toList] := by
    rw [String.toList_append, String.toList_append, List.append_assoc]
    show (host.toList ++ ':' :: (toString port).toList).splitOn ':' = _
    rw [List.splitOn_append_cons_self, List.splitOn_eq_singleton hhost,
      List.splitOn_eq_singleton hfree]
    rfl
  rw [hostAndPort, hsplit]
  show (readInt (String.ofList (toString port).toList)).map _ = _
  rw [String.ofList_toList, String.ofList_toList, readInt_toString]
  rfl

/-- The host of an address has no colon in it. -/
theorem free_of_hostAndPort {addr host : String} {port : Int}
    (h : hostAndPort addr = some (host, port)) : ':' ∉ host.toList := by
  unfold hostAndPort at h
  split at h
  · next u v hsplit =>
    obtain ⟨_, -, hpair⟩ := Option.map_eq_some_iff.mp h
    obtain ⟨rfl, -⟩ := Prod.mk.inj hpair
    rw [String.toList_ofList]
    intro hmem
    -- with a colon in the host there would be three pieces
    obtain ⟨x, y, rfl⟩ := List.append_of_mem hmem
    have haddr : addr.toList = x ++ ':' :: (y ++ ':' :: v) := by
      have hjoin : [':'].intercalate (addr.toList.splitOn ':') = addr.toList :=
        List.intercalate_splitOn ':'
      rw [← hjoin, hsplit]
      simp
    have hlength := congrArg List.length hsplit
    rw [haddr, List.splitOn_append_cons_self, List.splitOn_append_cons_self, List.length_append,
      List.length_append, List.length_cons, List.length_cons, List.length_nil] at hlength
    have hx := List.length_pos_iff.mpr (List.splitOn_ne_nil ':' x)
    have hy := List.length_pos_iff.mpr (List.splitOn_ne_nil ':' y)
    have hv := List.length_pos_iff.mpr (List.splitOn_ne_nil ':' v)
    omega
  · exact absurd h (by simp)

/-- A hostname that leaves an address with one colon. -/
def Plain (hostname : Option String) : Prop := ∀ h, hostname = some h → ':' ∉ h.toList

variable {offset offset' : Int} {hostname hostname' : Option String} {addr addr' : String}

theorem free_hostnameOr {host : String} (hplain : Plain hostname) (hhost : ':' ∉ host.toList) :
    ':' ∉ (hostnameOr hostname host).toList := by
  cases hostname with
  | none => exact hhost
  | some h =>
    unfold hostnameOr
    dsimp only
    split_ifs with hempty
    · exact hhost
    · exact hplain h rfl

theorem hostnameOr_hostnameOr (host : String) :
    hostnameOr hostname' (hostnameOr hostname host) =
      hostnameOr (laterHostname hostname hostname') host := by
  cases hostname' with
  | none => rfl
  | some h =>
    by_cases hempty : h = ""
    · simp [hostnameOr, laterHostname, hempty]
    · simp [hostnameOr, laterHostname, hempty]

theorem changeAddr_eq_ok_iff :
    changeAddr offset hostname addr = .ok addr' ↔ AddrMoved offset hostname addr addr' := by
  unfold changeAddr AddrMoved
  cases h : hostAndPort addr with
  | none => simp
  | some x =>
    obtain ⟨host, port⟩ := x
    simp only [Except.ok.injEq, Option.some.injEq, Prod.mk.injEq]
    constructor
    · rintro rfl
      exact ⟨host, port, ⟨rfl, rfl⟩, rfl⟩
    · rintro ⟨_, _, ⟨rfl, rfl⟩, rfl⟩
      rfl

theorem addrMoved_of_isSome (offset : Int) (hostname : Option String)
    (h : (hostAndPort addr).isSome = true) : ∃ addr', AddrMoved offset hostname addr addr' := by
  obtain ⟨⟨host, port⟩, heq⟩ := Option.isSome_iff_exists.mp h
  exact ⟨_, host, port, heq, rfl⟩

/-- The address of a clone is an address, too. -/
theorem AddrMoved.hostAndPort (hplain : Plain hostname) (h : AddrMoved offset hostname addr addr') :
    ∃ host port, Neonclone.hostAndPort addr = some (host, port) ∧
      Neonclone.hostAndPort addr' = some (hostnameOr hostname host, port + offset) := by
  obtain ⟨host, port, heq, rfl⟩ := h
  exact ⟨host, port, heq,
    hostAndPort_append (free_hostnameOr hplain (free_of_hostAndPort heq)) (port + offset)⟩

theorem AddrMoved.unique {addr₁ addr₂ : String} (h₁ : AddrMoved offset hostname addr addr₁)
    (h₂ : AddrMoved offset hostname addr addr₂) : addr₁ = addr₂ := by
  obtain ⟨host, port, heq, rfl⟩ := h₁
  obtain ⟨host', port', heq', rfl⟩ := h₂
  rw [heq] at heq'
  obtain ⟨rfl, rfl⟩ := Prod.mk.inj (Option.some.inj heq')
  rfl

theorem AddrMoved.trans {addr'' : String} (hplain : Plain hostname)
    (h : AddrMoved offset hostname addr addr') (h' : AddrMoved offset' hostname' addr' addr'') :
    AddrMoved (offset + offset') (laterHostname hostname hostname') addr addr'' := by
  obtain ⟨host, port, heq, hmoved⟩ := h.hostAndPort hplain
  obtain ⟨host', port', heq', rfl⟩ := h'
  rw [hmoved] at heq'
  obtain ⟨rfl, rfl⟩ := Prod.mk.inj (Option.some.inj heq')
  exact ⟨host, port, heq, by rw [hostnameOr_hostnameOr, Int.add_assoc]⟩

/-! ## The directories of the safekeepers -/

variable {fs fs' : String → Option Entry} {sks : List Safekeeper} {shift : Int}

theorem unlinkId_unlinkId (e : Entry) : e.unlinkId.unlinkId = e.unlinkId := by
  cases e with
  | file => rfl
  | dir files => simp [Entry.unlinkId, List.filter_filter]

/-- A directory is renamed to a name that is free, or keeps its name. -/
theorem rename_eq_ok {old new : String} (h : old = new ∨ fs new = none) :
    ∃ fs', rename fs old new = .ok fs' ∧ fs' new = fs old ∧
      ∀ name, name ≠ new → fs' name = if name = old then none else fs name := by
  unfold rename
  by_cases heq : old = new
  · subst heq
    refine ⟨fs, if_pos rfl, rfl, fun name hname => ?_⟩
    rw [if_neg hname]
  · have hnew : fs new = none := by
      rcases h with h | h
      · exact absurd h heq
      · exact h
    refine ⟨Function.update (Function.update fs old none) new (fs old), ?_,
      Function.update_self .., fun name hname => ?_⟩
    · rw [if_neg heq, hnew]
    · rw [Function.update_of_ne hname]
      by_cases hold : name = old
      · rw [if_pos hold, hold, Function.update_self]
      · rw [if_neg hold, Function.update_of_ne hold]

/-- The loop moves every directory, if none of them is in the way of another one. -/
theorem renameAll_eq_ok (hnodup : (sks.map Safekeeper.id).Nodup)
    (hdirs : ∀ sk ∈ sks, ∃ files, fs (skName sk.id) = some (.dir files))
    (hfree : ∀ sk ∈ sks, shift = 0 ∨ fs (skName (sk.id + shift)) = none) :
    ∃ fs', renameAll shift sks fs =
        (.ok (sks.map fun sk => { sk with id := sk.id + shift }), fs') ∧
      (∀ sk ∈ sks, fs' (skName (sk.id + shift)) = (fs (skName sk.id)).map Entry.unlinkId) ∧
      ∀ name, (∀ sk ∈ sks, name ≠ skName (sk.id + shift)) →
        fs' name = if name ∈ sks.map (fun sk => skName sk.id) then none else fs name := by
  induction sks generalizing fs with
  | nil => exact ⟨fs, rfl, fun sk hsk => absurd hsk List.not_mem_nil, fun name _ => rfl⟩
  | cons sk sks ih =>
    obtain ⟨hnot, hnodup⟩ := List.nodup_cons.mp hnodup
    obtain ⟨files, hdir⟩ := hdirs sk List.mem_cons_self
    have hother : ∀ other ∈ sks, other.id ≠ sk.id := by
      intro other hmem heq
      exact hnot (List.mem_map.mpr ⟨other, hmem, heq⟩)
    have hold : ∀ other ∈ sks, skName other.id ≠ skName (sk.id + shift) := by
      intro other hmem heq
      rcases hfree sk List.mem_cons_self with hzero | hnone
      · rw [hzero, Int.add_zero] at heq
        exact hother other hmem (skName_injective heq)
      · obtain ⟨files', hdir'⟩ := hdirs other (List.mem_cons_of_mem _ hmem)
        rw [← heq, hdir'] at hnone
        exact absurd hnone (by simp)
    have hnew : ∀ other ∈ sks, skName (other.id + shift) ≠ skName (sk.id + shift) := by
      intro other hmem heq
      have hid := skName_injective heq
      exact hother other hmem (by omega)
    have hrename : skName sk.id = skName (sk.id + shift) ∨ fs (skName (sk.id + shift)) = none := by
      rcases hfree sk List.mem_cons_self with hzero | hnone
      · exact Or.inl (by rw [hzero, Int.add_zero])
      · exact Or.inr hnone
    obtain ⟨fs₁, hren, hself, hrest⟩ := rename_eq_ok hrename
    -- the state after the first directory
    let fs₂ := Function.update fs₁ (skName (sk.id + shift))
      ((fs₁ (skName (sk.id + shift))).map Entry.unlinkId)
    have hself₂ : fs₂ (skName (sk.id + shift)) = (fs (skName sk.id)).map Entry.unlinkId := by
      rw [← hself]
      exact Function.update_self ..
    have hrest₂ : ∀ name, name ≠ skName (sk.id + shift) →
        fs₂ name = if name = skName sk.id then none else fs name := by
      intro name hname
      rw [← hrest name hname]
      exact Function.update_of_ne hname ..
    have hkept : ∀ other ∈ sks, fs₂ (skName other.id) = fs (skName other.id) := by
      intro other hmem
      rw [hrest₂ _ (hold other hmem),
        if_neg fun heq => hother other hmem (skName_injective heq)]
    have hdirs₂ : ∀ other ∈ sks, ∃ files, fs₂ (skName other.id) = some (.dir files) := by
      intro other hmem
      rw [hkept other hmem]
      exact hdirs other (List.mem_cons_of_mem _ hmem)
    have hfree₂ : ∀ other ∈ sks, shift = 0 ∨ fs₂ (skName (other.id + shift)) = none := by
      intro other hmem
      rcases hfree other (List.mem_cons_of_mem _ hmem) with hzero | hnone
      · exact Or.inl hzero
      · right
        rw [hrest₂ _ (hnew other hmem), hnone, ite_self]
    obtain ⟨fs', hloop, hmoved, hothers⟩ := ih hnodup hdirs₂ hfree₂
    refine ⟨fs', ?_, fun other hmem => ?_, fun name hname => ?_⟩
    · simp only [renameAll, hdir, hren]
      rw [show Function.update fs₁ (skName (sk.id + shift))
        ((fs₁ (skName (sk.id + shift))).map Entry.unlinkId) = fs₂ from rfl, hloop]
      rfl
    · rcases List.mem_cons.mp hmem with rfl | hmem
      · rw [hothers _ fun other' hmem' heq => hnew other' hmem' heq.symm, if_neg, hself₂]
        intro hin
        obtain ⟨other', hmem', heq⟩ := List.mem_map.mp hin
        exact hold other' hmem' heq
      · rw [hmoved other hmem, hkept other hmem]
    · have hname₁ : name ≠ skName (sk.id + shift) := hname sk List.mem_cons_self
      rw [hothers name fun other hmem => hname other (List.mem_cons_of_mem _ hmem),
        hrest₂ name hname₁, List.map_cons]
      by_cases hin : name ∈ sks.map fun sk => skName sk.id
      · rw [if_pos hin, if_pos (List.mem_cons_of_mem _ hin)]
      · by_cases heq : name = skName sk.id
        · rw [if_neg hin, if_pos heq, if_pos (List.mem_cons.mpr (Or.inl heq))]
        · rw [if_neg hin, if_neg heq, if_neg]
          intro h
          rcases List.mem_cons.mp h with h | h
          · exact heq h
          · exact hin h

/-- Ids that are told apart by their remainders are told apart. -/
theorem eq_of_shifted {n : Int} {a b : Safekeeper} (o o' : Int) (hn : (sks.length : Int) = n)
    (hapart : sks.Pairwise fun a b => a.id % n ≠ b.id % n) (ha : a ∈ sks) (hb : b ∈ sks)
    (heq : a.id + n * o = b.id + n * o') : a = b ∧ o = o' := by
  have hpos : n ≠ 0 := by
    have := List.length_pos_of_mem ha
    omega
  have hmod : a.id % n = b.id % n := by
    rw [← Int.add_mul_emod_self_left a.id n o, heq, Int.add_mul_emod_self_left]
  have hsymm : Std.Symm fun a b : Safekeeper => a.id % n ≠ b.id % n := ⟨fun _ _ h => Ne.symm h⟩
  have hab : a = b := by
    by_contra hne
    exact hapart.forall ha hb hne hmod
  refine ⟨hab, ?_⟩
  rw [hab] at heq
  exact Int.eq_of_mul_eq_mul_left hpos (by omega)

/-- The directories of a tidy directory are moved. -/
theorem renameAll_of_housed {n : Int} (hn : (sks.length : Int) = n)
    (hapart : sks.Pairwise fun a b => a.id % n ≠ b.id % n) (h : Housed sks fs) (o : Int) :
    ∃ fs', renameAll (n * o) sks fs =
        (.ok (sks.map fun sk => { sk with id := sk.id + n * o }), fs') ∧
      (∀ sk ∈ sks, fs' (skName (sk.id + n * o)) = (fs (skName sk.id)).map Entry.unlinkId) ∧
      ∀ name, fs' name ≠ none → ∃ sk ∈ sks, name = skName (sk.id + n * o) := by
  have hnodup : (sks.map Safekeeper.id).Nodup := by
    rw [List.Nodup, List.pairwise_map]
    exact hapart.imp fun hne heq => hne (by rw [heq])
  have hfree : ∀ sk ∈ sks, n * o = 0 ∨ fs (skName (sk.id + n * o)) = none := by
    intro sk hsk
    by_contra hnot
    obtain ⟨hne, hsome⟩ := not_or.mp hnot
    obtain ⟨other, hother, heq⟩ := h.2 _ hsome
    have hid := skName_injective heq
    obtain ⟨-, rfl⟩ := eq_of_shifted o 0 hn hapart hsk hother (by omega)
    exact hne (by omega)
  obtain ⟨fs', hloop, hmoved, hothers⟩ := renameAll_eq_ok hnodup h.1 hfree
  refine ⟨fs', hloop, hmoved, fun name hname => ?_⟩
  by_contra hnot
  have hnone := hothers name fun sk hsk heq => hnot ⟨sk, hsk, heq⟩
  by_cases hin : name ∈ sks.map fun sk => skName sk.id
  · rw [if_pos hin] at hnone
    exact hname hnone
  · rw [if_neg hin] at hnone
    rw [hnone] at hname
    obtain ⟨sk, hsk, heq⟩ := h.2 name hname
    exact hin (List.mem_map.mpr ⟨sk, hsk, heq.symm⟩)

/-! ## Clones -/

variable {neon neon' : Neon}

/-- Both files are changed in the same way. -/
theorem editConfigs_eq_ok (offset : Int) (hostname : Option String) (h : neon.Tidy) :
    ∃ edited, editConfigs offset hostname neon = (.ok (), edited) ∧
      AddrMoved offset hostname neon.pageserverToml.listenHttpAddr
        edited.pageserverToml.listenHttpAddr ∧
      AddrMoved offset hostname neon.pageserverToml.listenPgAddr
        edited.pageserverToml.listenPgAddr ∧
      AddrMoved offset hostname neon.config.xactserver edited.config.xactserver ∧
      edited.pageserverToml.id = neon.pageserverToml.id + offset ∧
      edited.config.pageserver = edited.pageserverToml ∧
      edited.config.safekeepers = neon.config.safekeepers.map (fun sk =>
        { sk with httpPort := sk.httpPort + offset, pgPort := sk.pgPort + offset }) ∧
      edited.safekeepers = neon.safekeepers := by
  obtain ⟨http, hhttp⟩ := addrMoved_of_isSome offset hostname h.http
  obtain ⟨pg, hpg⟩ := addrMoved_of_isSome offset hostname h.pg
  obtain ⟨xactserver, hxactserver⟩ := addrMoved_of_isSome offset hostname h.xactserver
  let pageserver : Pageserver :=
    { listenHttpAddr := http, listenPgAddr := pg, id := neon.pageserverToml.id + offset }
  let safekeepers := neon.config.safekeepers.map fun sk =>
    { sk with httpPort := sk.httpPort + offset, pgPort := sk.pgPort + offset }
  refine ⟨{ neon with
      pageserverToml := pageserver
      config := { pageserver, xactserver, safekeepers } },
    ?_, hhttp, hpg, hxactserver, rfl, rfl, rfl, rfl⟩
  unfold editConfigs
  rw [changeAddr_eq_ok_iff.mpr hhttp]
  dsimp only
  rw [changeAddr_eq_ok_iff.mpr hpg]
  dsimp only
  rw [changeAddr_eq_ok_iff.mpr hxactserver]

theorem Housed.map {f : Safekeeper → Safekeeper} (hf : ∀ sk, (f sk).id = sk.id)
    (h : Housed sks fs) : Housed (sks.map f) fs := by
  constructor
  · intro sk' hsk'
    obtain ⟨sk, hsk, rfl⟩ := List.mem_map.mp hsk'
    rw [hf]
    exact h.1 sk hsk
  · intro name hname
    obtain ⟨sk, hsk, rfl⟩ := h.2 name hname
    exact ⟨f sk, List.mem_map_of_mem hsk, by rw [hf]⟩

/-- The ids and the directories are changed in the same way. -/
theorem editSafekeeperIds_eq_ok (dstNeon : String) (offset : Int) (hfs : neon.safekeepers = some fs)
    (hhoused : Housed neon.config.safekeepers fs)
    (hapart : neon.config.safekeepers.Pairwise fun a b =>
      a.id % neon.config.numSk ≠ b.id % neon.config.numSk) :
    ∃ fs', editSafekeeperIds offset dstNeon neon = (.ok (), { neon with
        config := { neon.config with
          safekeepers := neon.config.safekeepers.map fun sk =>
            { sk with id := sk.id + neon.config.numSk * offset } }
        safekeepers := some fs' }) ∧
      (∀ sk ∈ neon.config.safekeepers, fs' (skName (sk.id + neon.config.numSk * offset)) =
        (fs (skName sk.id)).map Entry.unlinkId) ∧
      ∀ name, fs' name ≠ none →
        ∃ sk ∈ neon.config.safekeepers, name = skName (sk.id + neon.config.numSk * offset) := by
  obtain ⟨fs', hloop, hmoved, honly⟩ := renameAll_of_housed rfl hapart hhoused offset
  refine ⟨fs', ?_, hmoved, honly⟩
  unfold editSafekeeperIds
  rw [hfs]
  dsimp only
  rw [show neon.config.numSk = (neon.config.safekeepers.length : Int) from rfl, hloop]

/-- A tidy directory is cloned as it is to be. -/
theorem cloned_of_tidy (h : neon.Tidy) (src dst : String) (offset : Int)
    (hostname : Option String) :
    ∃ neon', cloneNeon src dst offset hostname (some (some neon)) (some none) =
        (.ok (), some (some neon')) ∧ Cloned offset hostname neon neon' := by
  obtain ⟨edited, hedit, hhttp, hpg, hxactserver, hid, hagrees, hsks, hdir⟩ :=
    editConfigs_eq_ok offset hostname h
  obtain ⟨fs, hfs, hhoused⟩ := h.housed
  have hnum : edited.config.numSk = neon.config.numSk := by
    rw [Config.numSk, hsks, List.length_map]
    rfl
  have hhoused' : Housed edited.config.safekeepers fs := by
    rw [hsks]
    exact hhoused.map fun _ => rfl
  have hapart' : edited.config.safekeepers.Pairwise fun a b =>
      a.id % edited.config.numSk ≠ b.id % edited.config.numSk := by
    rw [hnum, hsks, List.pairwise_map]
    exact h.apart
  obtain ⟨fs', hids, hmoved, honly⟩ := editSafekeeperIds_eq_ok (joinPath dst ".neon") offset
    (hdir.trans hfs) hhoused' hapart'
  have hsks' : (edited.config.safekeepers.map fun sk =>
      { sk with id := sk.id + edited.config.numSk * offset }) =
        neon.config.safekeepers.map (Safekeeper.moved neon.config.numSk offset) := by
    rw [hnum, hsks, List.map_map]
    rfl
  have hmoved' : ∀ sk ∈ neon.config.safekeepers,
      fs' (skName (sk.id + neon.config.numSk * offset)) =
        (fs (skName sk.id)).map Entry.unlinkId := by
    intro sk hsk
    have hmem : { sk with httpPort := sk.httpPort + offset, pgPort := sk.pgPort + offset } ∈
        edited.config.safekeepers := by
      rw [hsks]
      exact List.mem_map_of_mem hsk
    rw [← hnum]
    exact hmoved { sk with httpPort := sk.httpPort + offset, pgPort := sk.pgPort + offset } hmem
  let cloned : Neon := { edited with
    config := { edited.config with
      safekeepers := edited.config.safekeepers.map fun sk =>
        { sk with id := sk.id + edited.config.numSk * offset } }
    safekeepers := some fs' }
  refine ⟨cloned, ?_, hhttp, hpg, hid, hagrees, hxactserver, hsks', fs, fs', hfs, rfl, ?_,
    hmoved'⟩
  · rw [cloneNeon, deepCopyNeon]
    dsimp only
    rw [hedit]
    dsimp only
    rw [hids]
  · show Housed (edited.config.safekeepers.map fun sk =>
      { sk with id := sk.id + edited.config.numSk * offset }) fs'
    constructor
    · intro sk' hsk'
      obtain ⟨sk, hsk, rfl⟩ := List.mem_map.mp hsk'
      obtain ⟨files, heq⟩ := hhoused'.1 sk hsk
      exact ⟨_, by rw [hmoved sk hsk, heq]; rfl⟩
    · intro name hname
      obtain ⟨sk, hsk, rfl⟩ := honly name hname
      exact ⟨_, List.mem_map_of_mem hsk, rfl⟩

/-! ## Clones of clones -/

/-- There is one clone with a given offset and hostname. -/
theorem Cloned.unique {a b : Neon} (ha : Cloned offset hostname neon a)
    (hb : Cloned offset hostname neon b) : a = b := by
  have htoml : a.pageserverToml = b.pageserverToml :=
    Pageserver.ext (ha.http.unique hb.http) (ha.pg.unique hb.pg) (ha.id.trans hb.id.symm)
  have hsks : a.config.safekeepers = b.config.safekeepers := ha.safekeepers.trans hb.safekeepers.symm
  have hconfig : a.config = b.config :=
    Config.ext (ha.agrees.trans (htoml.trans hb.agrees.symm)) (ha.xactserver.unique hb.xactserver)
      hsks
  obtain ⟨fs, fsa, hfs, hfsa, hhouseda, hmoveda⟩ := ha.housed
  obtain ⟨fs', fsb, hfs', hfsb, hhousedb, hmovedb⟩ := hb.housed
  obtain rfl := Option.some.inj (hfs.symm.trans hfs')
  have hdirs : fsa = fsb := by
    funext name
    by_cases hname : ∃ sk ∈ neon.config.safekeepers,
        name = skName (sk.id + neon.config.numSk * offset)
    · obtain ⟨sk, hsk, rfl⟩ := hname
      rw [hmoveda sk hsk, hmovedb sk hsk]
    · have hnone : ∀ {c : Neon} {fsc}, c.config.safekeepers = neon.config.safekeepers.map
          (Safekeeper.moved neon.config.numSk offset) → Housed c.config.safekeepers fsc →
          fsc name = none := by
        intro c fsc hc hhoused
        by_contra hsome
        obtain ⟨sk', hsk', rfl⟩ := hhoused.2 name hsome
        rw [hc] at hsk'
        obtain ⟨sk, hsk, rfl⟩ := List.mem_map.mp hsk'
        exact hname ⟨sk, hsk, rfl⟩
      rw [hnone ha.safekeepers hhouseda, hnone hb.safekeepers hhousedb]
  exact Neon.ext htoml hconfig (by rw [hfsa, hfsb, hdirs])

theorem Safekeeper.moved_moved (n : Int) (sk : Safekeeper) :
    (sk.moved n offset).moved n offset' = sk.moved n (offset + offset') := by
  simp only [Safekeeper.moved, Safekeeper.mk.injEq]
  refine ⟨?_, by omega, by omega⟩
  rw [Int.mul_add, Int.add_assoc]

theorem Cloned.numSk (h : Cloned offset hostname neon neon') :
    neon'.config.numSk = neon.config.numSk := by
  rw [Config.numSk, h.safekeepers, List.length_map]
  rfl

/-- The clone of a clone is a clone. -/
theorem Cloned.trans {neon'' : Neon} (hplain : Plain hostname)
    (h : Cloned offset hostname neon neon') (h' : Cloned offset' hostname' neon' neon'') :
    Cloned (offset + offset') (laterHostname hostname hostname') neon neon'' := by
  have hnum := h.numSk
  obtain ⟨fs, fs', hfs, hfs', hhoused, hmoved⟩ := h.housed
  obtain ⟨fs'₁, fs'', hfs'₁, hfs'', hhoused', hmoved'⟩ := h'.housed
  obtain rfl := Option.some.inj (hfs'.symm.trans hfs'₁)
  refine ⟨h.http.trans hplain h'.http, h.pg.trans hplain h'.pg, ?_, h'.agrees,
    h.xactserver.trans hplain h'.xactserver, ?_, fs, fs'', hfs, hfs'', hhoused', fun sk hsk => ?_⟩
  · rw [h'.id, h.id, Int.add_assoc]
  · rw [h'.safekeepers, h.safekeepers, hnum, List.map_map]
    exact List.map_congr_left fun sk _ => Safekeeper.moved_moved _ sk
  · have hmem : sk.moved neon.config.numSk offset ∈ neon'.config.safekeepers := by
      rw [h.safekeepers]
      exact List.mem_map_of_mem hsk
    have hsecond := hmoved' _ hmem
    rw [hnum] at hsecond
    have hid : sk.id + neon.config.numSk * (offset + offset') =
        (sk.moved neon.config.numSk offset).id + neon.config.numSk * offset' := by
      rw [Safekeeper.moved, Int.mul_add, Int.add_assoc]
    rw [hid, hsecond]
    show (fs' (skName (sk.id + neon.config.numSk * offset))).map Entry.unlinkId = _
    rw [hmoved sk hsk, Option.map_map]
    congr 1
    funext e
    exact unlinkId_unlinkId e

/-- A clone of a tidy directory is tidy. -/
theorem Cloned.tidy (hplain : Plain hostname) (htidy : neon.Tidy)
    (h : Cloned offset hostname neon neon') : neon'.Tidy := by
  have haddr : ∀ {addr addr'}, AddrMoved offset hostname addr addr' →
      (hostAndPort addr').isSome = true := by
    intro addr addr' hmoved
    obtain ⟨host, port, -, heq⟩ := hmoved.hostAndPort hplain
    rw [heq]
    rfl
  obtain ⟨-, fs', -, hfs', hhoused, -⟩ := h.housed
  refine ⟨h.agrees, haddr h.http, haddr h.pg, haddr h.xactserver, ⟨fs', hfs', hhoused⟩, ?_⟩
  rw [h.numSk, h.safekeepers, List.pairwise_map]
  refine htidy.apart.imp fun {a b} hne => ?_
  simp only [Safekeeper.moved, Int.add_mul_emod_self_left]
  exact hne

/-- A directory with two safekeepers, whose ports are next to each other. -/
def sampleNeon : Neon :=
  let pageserver : Pageserver :=
    { listenHttpAddr := "127.0.0.1:9898", listenPgAddr := "127.0.0.1:64000", id := 1 }
  { pageserverToml := pageserver
    config :=
      { pageserver, xactserver := "127.0.0.1:10000"
        safekeepers := [⟨1, 7676, 5454⟩, ⟨2, 7677, 5455⟩] }
    safekeepers := some fun name =>
      if name = "sk1" then some (.dir [("safekeeper.id", "1"), ("safekeeper.log", "")])
      else if name = "sk2" then some (.dir [("safekeeper.id", "2")])
      else none }

theorem tidy_sampleNeon : sampleNeon.Tidy := by
  have hone : skName 1 = "sk1" := by decide
  have htwo : skName 2 = "sk2" := by decide
  refine ⟨rfl, by decide, by decide, by decide, ⟨_, rfl, fun sk hsk => ?_, fun name hname => ?_⟩,
    by decide⟩
  · simp only [sampleNeon, List.mem_cons, List.not_mem_nil, or_false] at hsk
    rcases hsk with rfl | rfl
    · exact ⟨_, if_pos hone⟩
    · exact ⟨_, (if_neg (by decide)).trans (if_pos htwo)⟩
  · dsimp only at hname
    split_ifs at hname with h₁ h₂
    · exact ⟨⟨1, 7676, 5454⟩, by simp [sampleNeon], by rw [h₁, hone]⟩
    · exact ⟨⟨2, 7677, 5455⟩, by simp [sampleNeon], by rw [h₂, htwo]⟩
    · exact absurd rfl hname

/-- **A clone can be cloned again, and the offsets add up.** Cloning the clone number `offset` with
`offset'` gives the same directory as cloning the original with the sum of them, with the hostname
that was given last. -/
theorem clone_twice (neon : Neon) (h : neon.Tidy) (src mid dst : String) (offset offset' : Int)
    (hostname hostname' : Option String) (hplain : Plain hostname) :
    ∃ clone twice,
      cloneNeon src mid offset hostname (some (some neon)) (some none) =
        (.ok (), some (some clone)) ∧
      cloneNeon mid dst offset' hostname' (some (some clone)) (some none) =
        (.ok (), some (some twice)) ∧
      cloneNeon src dst (offset + offset') (laterHostname hostname hostname') (some (some neon))
        (some none) = (.ok (), some (some twice)) := by
  obtain ⟨clone, hclone, hcloned⟩ := cloned_of_tidy h src mid offset hostname
  obtain ⟨twice, htwice, hcloned'⟩ :=
    cloned_of_tidy (hcloned.tidy hplain h) mid dst offset' hostname'
  obtain ⟨atOnce, hatOnce, hcloned''⟩ :=
    cloned_of_tidy h src dst (offset + offset') (laterHostname hostname hostname')
  obtain rfl := (hcloned.trans hplain hcloned').unique hcloned''
  exact ⟨clone, twice, hclone, htwice, hatOnce⟩

theorem clone_twice_sample :
    ∃ clone twice,
      cloneNeon "r0" "r1" 1 (some "eu") (some (some sampleNeon)) (some none) =
        (.ok (), some (some clone)) ∧
      cloneNeon "r1" "r2" 2 none (some (some clone)) (some none) = (.ok (), some (some twice)) ∧
      cloneNeon "r0" "r2" 3 (some "eu") (some (some sampleNeon)) (some none) =
        (.ok (), some (some twice)) :=
  clone_twice sampleNeon tidy_sampleNeon "r0" "r1" "r2" 1 2 (some "eu") none
    fun h heq => by rw [← Option.some.inj heq]; decide

/-! ## The clones of a local cluster -/

/-- Lists that are moved by `0` to `n` have no number twice if and only if the numbers are more than
`n` apart. -/
theorem nodup_shifts_iff {ps : List Int} {n : Nat} :
    ((List.range (n + 1)).flatMap fun i : Nat => ps.map fun p => p + (i : Int)).Nodup ↔
      ps.Pairwise fun p q => n < (p - q).natAbs := by
  have hsymm : Std.Symm fun p q : Int => n < (p - q).natAbs := ⟨fun p q h => by omega⟩
  have hmap : ∀ i : Nat, (ps.map fun p => p + (i : Int)).Nodup ↔ ps.Nodup := by
    intro i
    refine List.nodup_map_iff fun p q h => ?_
    have h : p + (i : Int) = q + (i : Int) := h
    omega
  rw [List.nodup_flatMap]
  constructor
  · rintro ⟨hnodup, hdisjoint⟩
    have hps : ps.Nodup := (hmap 0).mp (hnodup 0 (by simp))
    have hshift : ∀ p ∈ ps, ∀ q ∈ ps, ∀ d : Nat, 0 < d → d ≤ n → p ≠ q + (d : Int) := by
      intro p hp q hq d hpos hle heq
      have hd := List.pairwise_iff_getElem.mp hdisjoint 0 d (by simp) (by simp; omega) hpos
      simp only [List.getElem_range] at hd
      exact hd (List.mem_map.mpr ⟨p, hp, rfl⟩) (List.mem_map.mpr ⟨q, hq, by simp [heq]⟩)
    refine List.Pairwise.imp_of_mem (fun {p q} hp hq hne => ?_) hps
    by_contra hnot
    rcases le_total p q with h | h
    · exact hshift q hq p hp (q - p).toNat (by omega) (by omega) (by omega)
    · exact hshift p hp q hq (p - q).toNat (by omega) (by omega) (by omega)
  · intro hapart
    have hps : ps.Nodup := hapart.imp fun {p q} h heq => by
      rw [heq] at h
      omega
    refine ⟨fun i _ => (hmap i).mpr hps, ?_⟩
    refine List.Pairwise.imp_of_mem (fun {i j} hi hj hlt => ?_)
      (List.pairwise_lt_range (n := n + 1))
    intro x hx hy
    obtain ⟨p, hp, rfl⟩ := List.mem_map.mp hx
    obtain ⟨q, hq, heq⟩ := List.mem_map.mp hy
    have hj := List.mem_range.mp hj
    have hne : p ≠ q := by
      rintro rfl
      omega
    have hfar := hapart.forall hp hq hne
    omega

/-- The ports of a clone. -/
theorem Cloned.ports (hplain : Plain hostname)
    (hagrees : neon.config.pageserver = neon.pageserverToml)
    (h : Cloned offset hostname neon neon') :
    neon'.config.ports = neon.config.ports.map fun p => p + offset := by
  obtain ⟨_, http, hhttp, hhttp'⟩ := h.http.hostAndPort hplain
  obtain ⟨_, pg, hpg, hpg'⟩ := h.pg.hostAndPort hplain
  obtain ⟨_, xactserver, hxactserver, hxactserver'⟩ := h.xactserver.hostAndPort hplain
  have hsks : (neon.config.safekeepers.map (Safekeeper.moved neon.config.numSk offset)).flatMap
      (fun sk => [sk.httpPort, sk.pgPort]) =
        (neon.config.safekeepers.flatMap fun sk => [sk.httpPort, sk.pgPort]).map (· + offset) := by
    rw [List.map_flatMap, List.flatMap_map]
    rfl
  rw [Config.ports, Config.ports, h.agrees, hagrees, h.safekeepers, hsks, List.map_append]
  simp [hhttp, hhttp', hpg, hpg', hxactserver, hxactserver']

/-- **The clones of a cluster keep out of each other's way.** A tidy directory can be cloned for
every region. Whatever the number of regions, no id of a page server or a safekeeper is used in two
of them; no port is used twice if and only if the ports of the original are more than the number of
clones apart. -/
theorem clones_apart (neon : Neon) (h : neon.Tidy) (src : String) (dst : Nat → String) (n : Nat) :
    ∃ clones : Nat → Neon, clones 0 = neon ∧
      (∀ i, 0 < i → cloneNeon src (dst i) i none (some (some neon)) (some none) =
        (.ok (), some (some (clones i))) ∧ Cloned i none neon (clones i)) ∧
      (∀ i j, i ≠ j → (clones i).pageserverToml.id ≠ (clones j).pageserverToml.id ∧
        ∀ a ∈ (clones i).config.safekeepers, ∀ b ∈ (clones j).config.safekeepers, a.id ≠ b.id) ∧
      (((List.range (n + 1)).flatMap fun i => (clones i).config.ports).Nodup ↔
        neon.config.ports.Pairwise fun p q => n < (p - q).natAbs) := by
  have hplain : Plain none := fun _ hnone => absurd hnone (by simp)
  choose clone hclone hcloned using fun i : Nat => cloned_of_tidy h src (dst i) i none
  let clones : Nat → Neon := fun i => if i = 0 then neon else clone i
  have hpos : ∀ i, 0 < i → clones i = clone i := fun i hi => if_neg (by omega)
  have hid : ∀ i, (clones i).pageserverToml.id = neon.pageserverToml.id + (i : Int) := by
    intro i
    rcases Nat.eq_zero_or_pos i with rfl | hi
    · exact (Int.add_zero _).symm
    · rw [hpos i hi, (hcloned i).id]
  have hsks : ∀ i, ∀ a ∈ (clones i).config.safekeepers, ∃ sk ∈ neon.config.safekeepers,
      a.id = sk.id + neon.config.numSk * (i : Int) := by
    intro i a ha
    rcases Nat.eq_zero_or_pos i with rfl | hi
    · exact ⟨a, ha, by simp⟩
    · rw [hpos i hi, (hcloned i).safekeepers] at ha
      obtain ⟨sk, hsk, rfl⟩ := List.mem_map.mp ha
      exact ⟨sk, hsk, rfl⟩
  have hports : ∀ i, (clones i).config.ports = neon.config.ports.map fun p => p + (i : Int) := by
    intro i
    rcases Nat.eq_zero_or_pos i with rfl | hi
    · simp [clones]
    · rw [hpos i hi, (hcloned i).ports hplain h.agrees]
  refine ⟨clones, if_pos rfl, fun i hi => ?_, fun i j hij => ⟨?_, fun a ha b hb heq => ?_⟩, ?_⟩
  · rw [hpos i hi]
    exact ⟨hclone i, hcloned i⟩
  · rw [hid, hid]
    omega
  · obtain ⟨sk, hsk, ha⟩ := hsks i a ha
    obtain ⟨sk', hsk', hb⟩ := hsks j b hb
    rw [ha, hb] at heq
    have hsame := (eq_of_shifted i j rfl h.apart hsk hsk' heq).2
    omega
  · simp only [hports]
    exact nodup_shifts_iff

/-- With two safekeepers next to each other, already one clone uses a port of the original. -/
theorem clones_apart_sample :
    ∃ clones : Nat → Neon, clones 0 = sampleNeon ∧
      cloneNeon "r0" "r1" 1 none (some (some sampleNeon)) (some none) =
        (.ok (), some (some (clones 1))) ∧
      ¬ ((List.range 2).flatMap fun i => (clones i).config.ports).Nodup := by
  obtain ⟨clones, hzero, hclones, -, hports⟩ :=
    clones_apart sampleNeon tidy_sampleNeon "r0" (fun _ => "r1") 1
  refine ⟨clones, hzero, (hclones 1 (by decide)).1, ?_⟩
  rw [hports]
  decide

end Neonclone

end Sunstorm
