import Sunstorm.Csv.Csv

/-!
# Proofs: a table is read back as it was written

Only a carriage return is lost, since it cannot be told from the end of a line in a file.
-/

namespace Csv

variable {n : Nat}

/-! ## Lines -/

/-- The symbols of a character inside a text that goes on. -/
def symbol (c : Char) : List (Option Char) := if c = '\n' then [some c, none] else [some c]

theorem symbols_append (text rest : List Char) :
    symbols (text ++ '\n' :: rest) = text.flatMap symbol ++ some '\n' :: none :: symbols rest := by
  induction text with
  | nil => simp [symbols]
  | cons c text ih =>
    have hrest : text ++ '\n' :: rest ≠ [] := by simp
    rw [List.cons_append, List.flatMap_cons, List.append_assoc, ← ih]
    unfold symbol
    by_cases hc : c = '\n'
    · rw [if_pos hc]
      exact if_pos (Or.inl hc)
    · rw [if_neg hc]
      exact if_neg fun h => h.elim hc hrest

theorem universal_append {line : List Char} (h : '\r' ∉ line) (rest : List Char) :
    universal false (line ++ '\r' :: '\n' :: rest) = line ++ '\n' :: universal false rest := by
  induction line with
  | nil => simp [universal]
  | cons c line ih =>
    have hc : c ≠ '\r' := fun heq => h (heq ▸ List.mem_cons_self)
    have hline : '\r' ∉ line := fun hmem => h (List.mem_cons_of_mem _ hmem)
    have htail := ih hline
    simp [universal, hc, htail]

/-! ## What is written -/

theorem eq_of_mem_double {c d : Char} (h : d ∈ double c) : d = c := by
  unfold double at h
  by_cases hc : c = '"'
  · rw [if_pos hc] at h
    simp only [List.mem_cons, List.not_mem_nil, or_false, or_self] at h
    exact h.trans hc.symm
  · rw [if_neg hc] at h
    exact List.mem_singleton.mp h

theorem not_mem_writeField {f : List Char} (h : '\r' ∉ f) : '\r' ∉ writeField f := by
  unfold writeField
  by_cases hf : f.any special = true
  · rw [if_pos hf]
    unfold quote
    intro hmem
    rcases List.mem_cons.mp hmem with heq | hmem
    · exact absurd heq (by decide)
    · rcases List.mem_append.mp hmem with hmem | hmem
      · obtain ⟨c, hc, hd⟩ := List.mem_flatMap.mp hmem
        exact h (eq_of_mem_double hd ▸ hc)
      · exact absurd hmem (by decide)
  · rw [if_neg hf]
    exact h

theorem not_mem_join {row : Row} (h : ∀ f ∈ row, '\r' ∉ f) : '\r' ∉ join row := by
  induction row with
  | nil => exact List.not_mem_nil
  | cons f fs ih =>
    have hf := not_mem_writeField (h f List.mem_cons_self)
    cases fs with
    | nil => exact hf
    | cons g gs =>
      have hfs := ih fun k hk => h k (List.mem_cons_of_mem _ hk)
      intro hmem
      rcases List.mem_append.mp hmem with hmem | hmem
      · exact hf hmem
      · rcases List.mem_cons.mp hmem with heq | hmem
        · exact absurd heq (by decide)
        · exact hfs hmem

theorem not_mem_writeRow {row : Row} (h : ∀ f ∈ row, '\r' ∉ f) : '\r' ∉ writeRow row := by
  unfold writeRow
  by_cases hrow : row = [[]]
  · rw [if_pos hrow]
    decide
  · rw [if_neg hrow]
    exact not_mem_join h

/-! ## What is read -/

theorem feed_append (r : Reading) (xs ys : List (Option Char)) :
    r.feed n (xs ++ ys) =
      match r.feed n xs with
      | .ok r => r.feed n ys
      | .error e => .error e := by
  induction xs generalizing r with
  | nil => rfl
  | cons x xs ih =>
    simp only [List.cons_append, Reading.feed]
    cases r.state.process n x with
    | error e => rfl
    | ok state => exact ih _

/-- Feeding in two parts. -/
theorem feed_append_ok {r r' : Reading} {xs : List (Option Char)} (h : r.feed n xs = .ok r')
    (ys : List (Option Char)) : r.feed n (xs ++ ys) = r'.feed n ys := by
  rw [feed_append, h]

/-- A symbol that does not complete a row. -/
theorem feed_cons {r : Reading} {x : Option Char} {state : State}
    (h : r.state.process n x = .ok state) (hx : x ≠ none ∨ state.mode ≠ .startRecord)
    (xs : List (Option Char)) :
    r.feed n (x :: xs) = Reading.feed n { r with state } xs := by
  have hemit : Reading.emit { r with state } x = { r with state } :=
    if_neg fun hall => hx.elim (fun hne => hne hall.1) fun hne => hne hall.2
  rw [Reading.feed, h]
  dsimp only
  rw [hemit]

theorem add_ok {s : State} (h : s.field.length < n) (c : Char) (mode : Mode) :
    s.add n c mode = .ok { s with mode, field := s.field ++ [c] } := if_neg (by omega)

/-- The inside of a quoted field. -/
theorem feed_quoted (f : List Char) (rows : List Row) {s : State} (hmode : s.mode = .inQuoted)
    (hlength : s.field.length + f.length ≤ n) :
    Reading.feed n { state := s, rows } ((f.flatMap double).flatMap symbol) =
      .ok { state := { s with field := s.field ++ f }, rows } := by
  induction f generalizing s with
  | nil => simp [Reading.feed]
  | cons c f ih =>
    obtain ⟨mode, field, fields⟩ := s
    dsimp only at hmode hlength ⊢
    subst hmode
    rw [List.length_cons] at hlength
    have hshort : field.length < n := by omega
    have hlength' : (field ++ [c]).length + f.length ≤ n := by
      rw [List.length_append, List.length_singleton]
      omega
    have hrest := ih (s := { mode := .inQuoted, field := field ++ [c], fields }) rfl hlength'
    dsimp only at hrest
    rw [List.append_assoc, List.singleton_append] at hrest
    have hadd : ∀ d : Char, State.add n { mode := .inQuoted, field, fields } d .inQuoted =
        .ok { mode := .inQuoted, field := field ++ [d], fields } := fun d => add_ok hshort d _
    rw [List.flatMap_cons, List.flatMap_append]
    by_cases hquote : c = '"'
    · subst hquote
      have hopen : State.process n { mode := .inQuoted, field, fields } (some '"') =
          .ok { mode := .quoteInQuoted, field, fields } := rfl
      have hclose : State.process n { mode := .quoteInQuoted, field, fields } (some '"') =
          .ok { mode := .inQuoted, field := field ++ ['"'], fields } := add_ok hshort _ _
      have hsymbols : (double '"').flatMap symbol = [some '"', some '"'] := by decide
      rw [hsymbols, List.cons_append, feed_cons hopen (Or.inl (by simp)), List.cons_append,
        feed_cons hclose (Or.inl (by simp)), List.nil_append]
      exact hrest
    · have hdouble : double c = [c] := if_neg hquote
      have hnext : State.process n { mode := .inQuoted, field, fields } (some c) =
          .ok { mode := .inQuoted, field := field ++ [c], fields } := by
        unfold State.process
        dsimp only
        rw [if_neg hquote, hadd]
      rw [hdouble, List.flatMap_cons, List.flatMap_nil, List.append_nil]
      unfold symbol
      by_cases hline : c = '\n'
      · have hend : State.process n { mode := .inQuoted, field := field ++ [c], fields } none =
            .ok { mode := .inQuoted, field := field ++ [c], fields } := rfl
        rw [if_pos hline, List.cons_append, feed_cons hnext (Or.inl (by simp)), List.cons_append,
          feed_cons hend (Or.inr (by simp)), List.nil_append]
        exact hrest
      · rw [if_neg hline, List.cons_append, feed_cons hnext (Or.inl (by simp)), List.nil_append]
        exact hrest

/-- A field that needs no quotes, from its second character on. -/
theorem feed_plain {f : List Char} (hf : f.any special = false) (rows : List Row) {s : State}
    (hmode : s.mode = .inField) (hlength : s.field.length + f.length ≤ n) :
    Reading.feed n { state := s, rows } (f.flatMap symbol) =
      .ok { state := { s with field := s.field ++ f }, rows } := by
  induction f generalizing s with
  | nil => simp [Reading.feed]
  | cons c f ih =>
    obtain ⟨mode, field, fields⟩ := s
    dsimp only at hmode hlength ⊢
    subst hmode
    rw [List.length_cons] at hlength
    have hshort : field.length < n := by omega
    have hlength' : (field ++ [c]).length + f.length ≤ n := by
      rw [List.length_append, List.length_singleton]
      omega
    rw [List.any_cons, Bool.or_eq_false_iff] at hf
    obtain ⟨hc, hf⟩ := hf
    have hrest := ih hf (s := { mode := .inField, field := field ++ [c], fields }) rfl hlength'
    dsimp only at hrest
    rw [List.append_assoc, List.singleton_append] at hrest
    simp only [special, decide_eq_false_iff_not, not_or] at hc
    obtain ⟨hcomma, hquote, hline, hreturn⟩ := hc
    have hnext : State.process n { mode := .inField, field, fields } (some c) =
        .ok { mode := .inField, field := field ++ [c], fields } := by
      unfold State.process State.endOr
      dsimp only
      rw [if_neg (by simp [isNewline, hline, hreturn]), if_neg hcomma, add_ok hshort]
    have hsymbol : symbol c = [some c] := if_neg hline
    rw [List.flatMap_cons, hsymbol, List.singleton_append, feed_cons hnext (Or.inl (by simp))]
    exact hrest

/-- The reader has read a field and looks for its end. -/
structure Ready (s : State) (f : List Char) (fields : Row) : Prop where
  mode : s.mode = .startField ∨ s.mode = .inField ∨ s.mode = .quoteInQuoted
  field : s.field = f
  fields : s.fields = fields

/-- A field is read from its first character up to its end. -/
theorem feed_writeField {f : List Char} (hlength : f.length ≤ n) (fields : Row)
    (rows : List Row) :
    ∃ s, Reading.feed n { state := { mode := .startField, field := [], fields }, rows }
      ((writeField f).flatMap symbol) = .ok { state := s, rows } ∧ Ready s f fields := by
  unfold writeField
  by_cases hspecial : f.any special = true
  · have hopen : State.process n { mode := .startField, field := [], fields } (some '"') =
        .ok { mode := .inQuoted, field := [], fields } := rfl
    have hinside := feed_quoted (n := n) f rows
      (s := { mode := .inQuoted, field := [], fields }) rfl (by simpa using hlength)
    have hclose : State.process n { mode := .inQuoted, field := f, fields } (some '"') =
        .ok { mode := .quoteInQuoted, field := f, fields } := rfl
    have hsymbol : symbol '"' = [some '"'] := by decide
    refine ⟨{ mode := .quoteInQuoted, field := f, fields }, ?_, ⟨Or.inr (Or.inr rfl), rfl, rfl⟩⟩
    rw [if_pos hspecial, quote, List.flatMap_cons, hsymbol, List.singleton_append,
      feed_cons hopen (Or.inl (by simp)), List.flatMap_append, feed_append_ok hinside,
      List.flatMap_singleton, hsymbol, List.nil_append, feed_cons hclose (Or.inl (by simp))]
    rfl
  · rw [if_neg hspecial]
    cases f with
    | nil => exact ⟨_, rfl, ⟨Or.inl rfl, rfl, rfl⟩⟩
    | cons c f =>
      rw [List.length_cons] at hlength
      rw [Bool.not_eq_true, List.any_cons, Bool.or_eq_false_iff] at hspecial
      obtain ⟨hc, hf⟩ := hspecial
      simp only [special, decide_eq_false_iff_not, not_or] at hc
      obtain ⟨hcomma, hquote, hline, hreturn⟩ := hc
      have hfirst : State.process n { mode := .startField, field := [], fields } (some c) =
          .ok { mode := .inField, field := [c], fields } := by
        unfold State.process State.begin State.endOr
        dsimp only
        rw [if_neg (by simp [isNewline, hline, hreturn]), if_neg hcomma, if_neg hquote,
          add_ok (by simp; omega)]
        rfl
      have hsymbol : symbol c = [some c] := if_neg hline
      have hrest := feed_plain (n := n) hf rows
        (s := { mode := .inField, field := [c], fields }) rfl (by simp; omega)
      refine ⟨{ mode := .inField, field := c :: f, fields }, ?_, ⟨Or.inr (Or.inl rfl), rfl, rfl⟩⟩
      rw [List.flatMap_cons, hsymbol, List.singleton_append, feed_cons hfirst (Or.inl (by simp))]
      exact hrest

theorem process_comma {s : State} {f : List Char} {fields : Row} (h : Ready s f fields) :
    s.process n (some ',') =
      .ok { mode := .startField, field := [], fields := fields ++ [f] } := by
  obtain ⟨mode, field, read⟩ := s
  obtain ⟨hmode, rfl, rfl⟩ := h
  dsimp only at hmode
  rcases hmode with rfl | rfl | rfl <;> rfl

theorem process_newline {s : State} {f : List Char} {fields : Row} (h : Ready s f fields) :
    s.process n (some '\n') =
      .ok { mode := .eatNewline, field := [], fields := fields ++ [f] } := by
  obtain ⟨mode, field, read⟩ := s
  obtain ⟨hmode, rfl, rfl⟩ := h
  dsimp only at hmode
  rcases hmode with rfl | rfl | rfl <;> rfl

/-- The end of a line completes the row. -/
theorem feed_newline {s : State} {f : List Char} {fields : Row} (h : Ready s f fields)
    (rows : List Row) :
    Reading.feed n { state := s, rows } [some '\n', none] =
      .ok { state := .init, rows := rows ++ [fields ++ [f]] } := by
  rw [feed_cons (process_newline h) (Or.inl (by simp))]
  rfl

/-- The fields of a row, when one more is expected. -/
theorem feed_join {row : Row} (hrow : row ≠ []) (hlength : ∀ f ∈ row, f.length ≤ n)
    (fields : Row) (rows : List Row) :
    Reading.feed n { state := { mode := .startField, field := [], fields }, rows }
        ((join row).flatMap symbol ++ [some '\n', none]) =
      .ok { state := .init, rows := rows ++ [fields ++ row] } := by
  induction row generalizing fields with
  | nil => exact absurd rfl hrow
  | cons f fs ih =>
    obtain ⟨s, hfeed, hready⟩ := feed_writeField (hlength f List.mem_cons_self) fields rows
    cases fs with
    | nil =>
      unfold join
      rw [feed_append_ok hfeed]
      exact feed_newline hready rows
    | cons g gs =>
      have hrest := ih (List.cons_ne_nil g gs) (fun k hk => hlength k (List.mem_cons_of_mem _ hk))
        (fields ++ [f])
      rw [List.append_assoc, List.singleton_append] at hrest
      have hsymbol : symbol ',' = [some ','] := by decide
      have hjoin : join (f :: g :: gs) = writeField f ++ ',' :: join (g :: gs) := rfl
      rw [hjoin, List.flatMap_append, List.flatMap_cons, hsymbol, List.append_assoc,
        feed_append_ok hfeed, List.singleton_append, List.cons_append,
        feed_cons (process_comma hready) (Or.inl (by simp))]
      exact hrest

/-- Before its first symbol, a row that does not start with the end of a line is like one in which a
field is expected. -/
theorem feed_start {x : Char} (hx : isNewline x = false) (rows : List Row)
    (xs : List (Option Char)) :
    Reading.feed n { state := .init, rows } (some x :: xs) =
      Reading.feed n { state := { mode := .startField, field := [], fields := [] }, rows }
        (some x :: xs) := by
  have hprocess : State.init.process n (some x) =
      State.process n { mode := .startField, field := [], fields := [] } (some x) := by
    unfold State.process State.begin State.init State.endOr
    dsimp only
    have hnot : ¬isNewline x = true := by rw [hx]; simp
    rw [if_neg hnot, if_neg hnot, if_neg hnot]
    rfl
  rw [Reading.feed, Reading.feed, hprocess]

/-- A row that has a field does not start with the end of a line. -/
theorem writeRow_cons {row : Row} (h : row ≠ []) (hone : row ≠ [[]]) :
    ∃ x xs, join row = x :: xs ∧ isNewline x = false := by
  cases row with
  | nil => exact absurd rfl h
  | cons f fs =>
    have hfield : ∀ c t, f = c :: t → ∃ x xs, writeField f = x :: xs ∧ isNewline x = false := by
      intro c t hf
      unfold writeField
      by_cases hspecial : f.any special = true
      · rw [if_pos hspecial]
        exact ⟨'"', _, rfl, by decide⟩
      · rw [if_neg hspecial]
        subst hf
        rw [List.any_cons, Bool.or_eq_true, not_or, Bool.not_eq_true] at hspecial
        obtain ⟨hc, -⟩ := hspecial
        simp only [special, decide_eq_false_iff_not, not_or] at hc
        obtain ⟨-, -, hline, hreturn⟩ := hc
        exact ⟨c, t, rfl, by simp [isNewline, hline, hreturn]⟩
    cases fs with
    | nil =>
      cases f with
      | nil => exact absurd rfl hone
      | cons c t => exact hfield c t rfl
    | cons g gs =>
      cases f with
      | nil => exact ⟨',', join (g :: gs), rfl, by decide⟩
      | cons c t =>
        obtain ⟨x, xs, hx, hline⟩ := hfield c t rfl
        refine ⟨x, xs ++ ',' :: join (g :: gs), ?_, hline⟩
        have hjoin : join ((c :: t) :: g :: gs) = writeField (c :: t) ++ ',' :: join (g :: gs) := rfl
        rw [hjoin, hx, List.cons_append]

/-- A row is read as it was written. -/
theorem feed_writeRow {row : Row} (hlength : ∀ f ∈ row, f.length ≤ n) (rows : List Row) :
    Reading.feed n { state := .init, rows }
        ((writeRow row).flatMap symbol ++ [some '\n', none]) =
      .ok { state := .init, rows := rows ++ [row] } := by
  unfold writeRow
  by_cases hone : row = [[]]
  · subst hone
    rfl
  · rw [if_neg hone]
    cases hrow : row with
    | nil => rfl
    | cons f fs =>
      rw [← hrow]
      have hne : row ≠ [] := by simp [hrow]
      obtain ⟨x, xs, hjoin, hx⟩ := writeRow_cons hne hone
      have hrest := feed_join (n := n) hne hlength [] rows
      have hsymbol : symbol x = [some x] :=
        if_neg fun heq => absurd hx (by rw [heq]; decide)
      rw [hjoin, List.flatMap_cons, hsymbol, List.singleton_append, List.cons_append] at hrest ⊢
      rw [feed_start hx]
      exact hrest

theorem feed_render {table : List Row} (h : ∀ row ∈ table, ∀ f ∈ row, '\r' ∉ f)
    (hlength : ∀ row ∈ table, ∀ f ∈ row, f.length ≤ n) (rows : List Row) :
    Reading.feed n { state := .init, rows } (symbols (universal false (render table))) =
      .ok { state := .init, rows := rows ++ table } := by
  induction table generalizing rows with
  | nil => simp [render, universal, symbols, Reading.feed]
  | cons row table ih =>
    have hrow := feed_writeRow (hlength row List.mem_cons_self) rows
    have htable := ih (fun r hr => h r (List.mem_cons_of_mem _ hr))
      (fun r hr => hlength r (List.mem_cons_of_mem _ hr)) (rows ++ [row])
    have hrender : render (row :: table) = writeRow row ++ '\r' :: '\n' :: render table := by
      simp [render]
    have hsplit : ∀ ys : List (Option Char),
        (writeRow row).flatMap symbol ++ some '\n' :: none :: ys =
        (writeRow row).flatMap symbol ++ [some '\n', none] ++ ys := by simp
    rw [hrender, universal_append (not_mem_writeRow (h row List.mem_cons_self)), symbols_append,
      hsplit, feed_append_ok hrow, htable, List.append_assoc, List.singleton_append]

/-- **A table is read back as it was written.** That holds for every table whose fields have no
carriage return and are not too long for the reader. -/
theorem parse_render {table : List Row} (h : ∀ row ∈ table, ∀ f ∈ row, '\r' ∉ f)
    (hlength : ∀ row ∈ table, ∀ f ∈ row, f.length ≤ n) :
    parse n (render table) = .ok table := by
  have hfeed : Reading.init.feed n (symbols (universal false (render table))) =
      .ok { state := .init, rows := table } := feed_render h hlength []
  unfold parse
  rw [hfeed]
  rfl

end Csv
