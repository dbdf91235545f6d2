import Mathlib.Tactic.SplitIfs
import ModInstall.Json.Reader
import ModInstall.Json.Writer
import ModInstall.Proofs.Json.Exact
import ModInstall.Proofs.Text.Numeral

/-! # Reading what was written

    The text of an exact value is read back to that value.  The proof follows
    the reader: strings character by character, numbers digit by digit, and
    arrays and objects on the stack of what is open.  `ReadsValue` is what
    carries it through nested values: wherever a value may come next, its text
    has the effect of putting the value there, and the rest of the text is read
    from that point on. -/

namespace ModInstall.Json

/-! ## Strings -/

/-- A control character is escaped by the two hexadecimal digits of its
    code. -/
theorem unit?_control {n : Nat} (h : n < 32) :
    unit? '0' '0' (hexDigit (n / 16)) (hexDigit (n % 16)) = some n := by
  have hall : ∀ n < 32, unit? '0' '0' (hexDigit (n / 16)) (hexDigit (n % 16)) = some n := by
    decide
  exact hall n h

/-- A code unit below the surrogates is a character by itself. -/
theorem Piece.putUnit_control {p : Piece} (h : p.half = none) {c : Char} (hc : c.toNat < 32) :
    p.putUnit c.toNat = p.put c := by
  rw [putUnit, h]
  show (if _ then _ else if _ then _ else _) = _
  rw [if_neg (by omega), if_neg (by omega), Char.ofNat_toNat]

theorem readString_end (p : Piece) (cs : List Char) :
    readString p ('"' :: cs) = some (p.text, cs) := by
  rw [readString.eq_def]
  rfl

/-- A character that needs no escape is read as itself. -/
theorem readString_plain (p : Piece) {c : Char} (cs : List Char) (hq : c ≠ '"') (hb : c ≠ '\\')
    (hc : ¬c.toNat < 0x20) : readString p (c :: cs) = readString (p.put c) cs := by
  rw [readString.eq_def]
  dsimp only
  rw [if_neg hq, if_neg hb, if_neg hc]

/-- **What is escaped is read back**, character by character. -/
theorem readString_escape {p : Piece} (h : p.half = none) (c : Char) (cs : List Char) :
    readString p (escape c ++ cs) = readString (p.put c) cs := by
  rw [escape]
  split_ifs with hq hb h1 h2 h3 h4 h5 hc
  · subst hq; simp [readString, escaped?]
  · subst hb; simp [readString, escaped?]
  · subst h1; simp [readString, escaped?]
  · subst h2; simp [readString, escaped?]
  · subst h3; simp [readString, escaped?]
  · subst h4; simp [readString, escaped?]
  · subst h5; simp [readString, escaped?]
  · -- a control character without a letter of its own is written by its number
    show readString p ('\\' :: 'u' :: '0' :: '0' :: _ :: _ :: cs) = _
    rw [readString, if_neg (by decide), if_pos rfl, unit?_control hc]
    dsimp only
    rw [Piece.putUnit_control h hc]
  · exact readString_plain p cs hq hb hc

/-- A written string is read back, up to its closing quote. -/
theorem readString_quoted (cs rest : List Char) {p : Piece} (h : p.half = none) :
    readString p (cs.flatMap escape ++ '"' :: rest)
      = some (({ p with seen := cs.reverse ++ p.seen } : Piece).text, rest) := by
  induction cs generalizing p with
  | nil => exact readString_end p rest
  | cons c cs ih =>
      have hput : (p.put c).half = none := h
      rw [List.flatMap_cons, List.append_assoc, readString_escape h, ih hput]
      simp [Piece.put, h]

/-! ## Numbers -/

/-- What may follow a number: nothing that would make it a longer one. -/
def Delimited (rest : List Char) : Prop :=
  ∀ c ∈ rest.head?, c.isDigit = false ∧ c ≠ '.' ∧ c ≠ 'e' ∧ c ≠ 'E'

/-- Digits are read up to what delimits them. -/
theorem readDigits_append {ds rest : List Char} (hne : ds ≠ []) (hds : ∀ c ∈ ds, c.isDigit = true)
    (hr : Delimited rest) : readDigits (ds ++ rest) = some (ds, rest) := by
  have hstop : rest.takeWhile Char.isDigit = [] ∧ rest.dropWhile Char.isDigit = rest := by
    cases rest with
    | nil => exact ⟨rfl, rfl⟩
    | cons c cs =>
        have hc := (hr c rfl).1
        simp [hc]
  rw [readDigits, List.takeWhile_append_of_pos hds, List.dropWhile_append_of_pos hds, hstop.1,
    hstop.2, List.append_nil]
  cases ds with
  | nil => exact absurd rfl hne
  | cons d ds => rfl

/-- A numeral is read whole, for it has no leading zero. -/
theorem readWhole_toDigits (n : Nat) {rest : List Char} (hr : Delimited rest) :
    readWhole (Nat.toDigits 10 n ++ rest) = some (Nat.toDigits 10 n, rest) := by
  by_cases hn : n = 0
  · subst hn
    rfl
  · have hhead := Text.head?_toDigits_ne_zero (Nat.pos_of_ne_zero hn)
    have hread : readDigits (Nat.toDigits 10 n ++ rest) = some (Nat.toDigits 10 n, rest) :=
      readDigits_append Nat.toDigits_ne_nil (fun c hc => Text.isDigit_of_mem_toDigits hc) hr
    cases hd : Nat.toDigits 10 n with
    | nil => exact absurd hd Nat.toDigits_ne_nil
    | cons d ds =>
        rw [hd] at hhead hread
        rw [← hread]
        refine readWhole.eq_2 _ fun cs hcs => hhead ?_
        rw [(List.cons.inj hcs).1]
        rfl

/-- A numeral is read back whole, with no fraction and no exponent. -/
theorem readNumber_toDigits (negative : Bool) (n : Nat) {rest : List Char}
    (hr : Delimited rest) :
    readNumber negative (Nat.toDigits 10 n ++ rest)
      = some (.scalar (Numeral.value ⟨negative, Nat.toDigits 10 n, [], none⟩), rest) := by
  have htail : readFraction rest = some ([], rest) ∧ readExponent rest = some (none, rest) := by
    cases rest with
    | nil => exact ⟨rfl, rfl⟩
    | cons c cs =>
        obtain ⟨-, hdot, he, hE⟩ := hr c rfl
        refine ⟨readFraction.eq_2 _ fun cs' h => hdot (List.cons.inj h).1, ?_⟩
        rw [readExponent.eq_def]
        exact if_neg (not_or.mpr ⟨he, hE⟩)
  simp only [readNumber, readWhole_toDigits n hr, Option.bind_eq_bind, Option.bind_some, htail.1,
    htail.2]
  rfl

/-- A number with no more than 308 digits is below the greatest double. -/
theorem isBeyond_eq_false {n : Nat} (h : (Nat.toDigits 10 n).length ≤ 308) :
    isBeyond n 0 0 = false := by
  rw [isBeyond]
  by_cases hn : n = 0
  · rw [if_pos hn]
  · rw [if_neg hn]
    exact if_pos h

/-- The value of a whole number with a sign in front or none; `-0` is not
    written. -/
theorem Numeral.value_toDigits (negative : Bool) {n : Nat}
    (h : (Nat.toDigits 10 n).length ≤ 308) (hneg : negative = true → n ≠ 0) :
    Numeral.value ⟨negative, Nat.toDigits 10 n, [], none⟩
      = .int (if negative then -(n : Int) else n) := by
  have hz : ¬(negative = true ∧ n = 0) := fun hz => hneg hz.1 hz.2
  simp only [value, List.append_nil, Nat.ofDigitChars_ten_toDigits, List.length_nil,
    isBeyond_eq_false h, hz]
  rfl

/-- A digit begins a number. -/
theorem Token.read_digit {c : Char} (hc : c.isDigit = true) (cs : List Char) :
    Token.read c cs = readNumber false (c :: cs) := by
  rw [Token.read.eq_def]
  split <;> first | exact absurd hc (by decide) | rw [if_pos hc]

/-- A written number is one token, and begins with no blank. -/
theorem Token.read_integer {n : Int} (h : (Nat.toDigits 10 n.natAbs).length ≤ 308)
    {rest : List Char} (hr : Delimited rest) :
    ∃ c cs, integer n ++ rest = c :: cs ∧ isSpace c = false ∧
      Token.read c cs = some (.scalar (.int n), rest) := by
  by_cases hn : n < 0
  · -- the sign is a token's first character, and the numeral follows
    refine ⟨'-', _, by rw [integer, if_pos hn]; rfl, rfl, ?_⟩
    show readNumber true (Nat.toDigits 10 n.natAbs ++ rest) = _
    rw [readNumber_toDigits true _ hr, Numeral.value_toDigits true h (fun _ => by omega)]
    simp only [if_true]
    rw [show -(n.natAbs : Int) = n by omega]
  · rw [integer, if_neg hn]
    cases hd : Nat.toDigits 10 n.natAbs with
    | nil => exact absurd hd Nat.toDigits_ne_nil
    | cons c cs =>
        have hc : c.isDigit = true :=
          Text.isDigit_of_mem_toDigits (n := n.natAbs) (by rw [hd]; exact List.mem_cons_self ..)
        -- a numeral begins with a digit, which no space is
        have hspace : isSpace c = false := by
          rw [← Bool.not_eq_true]
          intro hs
          simp only [isSpace, Bool.or_eq_true, beq_iff_eq] at hs
          rcases hs with ((rfl | rfl) | rfl) | rfl <;> exact absurd hc (by decide)
        refine ⟨c, cs ++ rest, rfl, hspace, ?_⟩
        rw [Token.read_digit hc, ← List.cons_append, ← hd, readNumber_toDigits false _ hr,
          Numeral.value_toDigits false h (fun h => nomatch h)]
        simp only [Bool.false_eq_true, if_false]
        rw [show (n.natAbs : Int) = n by omega]

/-- A written string is one token. -/
theorem Token.read_quoted (s : String) (rest : List Char) :
    ∃ cs, quoted s ++ rest = '"' :: cs ∧ Token.read '"' cs = some (.string (some s), rest) := by
  refine ⟨s.toList.flatMap escape ++ '"' :: rest, by simp [quoted], ?_⟩
  show (readString {} _).map _ = _
  rw [readString_quoted s.toList rest rfl]
  simp [Piece.text]

/-! ## Values -/

namespace Builder

/-- A token is one step of the builder. -/
theorem run_token {b : Builder} {c : Char} {cs rest : List Char} {t : Token}
    (hs : isSpace c = false) (ht : Token.read c cs = some (t, rest)) :
    b.run (c :: cs) = (b.step t).bind (·.run rest) := by
  have hdrop : (c :: cs).dropWhile isSpace = c :: cs := by simp [hs]
  rw [run]
  split
  · next h => exact absurd (hdrop.symm.trans h) (List.cons_ne_nil _ _)
  · next c' r h =>
      obtain ⟨rfl, rfl⟩ := List.cons.inj (hdrop.symm.trans h)
      split
      · next h => exact absurd (ht.symm.trans h) (Option.some_ne_none _)
      · next t' rest' h =>
          obtain ⟨rfl, rfl⟩ := Prod.mk.inj (Option.some.inj (ht.symm.trans h))
          cases b.step t <;> rfl

theorem run_nil (b : Builder) : b.run [] = b.result? := by
  rw [run]
  rfl

/-- A token that can be taken in is, and the run goes on behind it. -/
theorem run_step {b b' : Builder} {c : Char} {cs rest : List Char} (t : Token)
    (hs : isSpace c = false) (ht : Token.read c cs = some (t, rest)) (hb : b.step t = some b') :
    b.run (c :: cs) = b'.run rest := by
  rw [run_token hs ht, hb]
  rfl

/-- Whether a value may come next. -/
def AwaitsValue (b : Builder) : Prop :=
  b.expects = .value ∨ b.expects = .valueOrEnd

/-- Where a value may come next, a token that begins one does so. -/
theorem step_of_awaitsValue {b : Builder} (h : b.AwaitsValue) {t : Token} {b' : Builder}
    (ht : begin b.frames t = some b') : b.step t = some b' := by
  obtain ⟨frames, expects⟩ := b
  rcases h with rfl | rfl
  · exact ht
  · cases t <;> first | exact ht | exact nomatch ht

/-- Where a value may come next, a scalar is one. -/
theorem step_scalar {b : Builder} (h : b.AwaitsValue) (v : Json) :
    b.step (.scalar v) = put b.frames v := by
  obtain ⟨frames, expects⟩ := b
  rcases h with rfl | rfl <;> rfl

/-- Where a value may come next, a string is one and not a key. -/
theorem step_string {b : Builder} (h : b.AwaitsValue) (s : String) :
    b.step (.string (some s)) = put b.frames (.string s) := by
  obtain ⟨frames, expects⟩ := b
  rcases h with rfl | rfl <;> rfl

/-- A builder reads a value when the text of the value has the effect of
    putting the value where it belongs. -/
def ReadsValue (v : Json) : Prop :=
  ∀ {b : Builder} {rest : List Char}, b.AwaitsValue → Delimited rest →
    b.run (v.write ++ rest) = (put b.frames v).bind (·.run rest)

/-- What follows an item or an entry makes no number longer. -/
theorem delimited_cons {c : Char} (hc : c = ',' ∨ c = ']' ∨ c = '\x7d') (cs : List Char) :
    Delimited (c :: cs) := by
  intro d hd
  obtain rfl := Option.some.inj hd
  rcases hc with rfl | rfl | rfl <;> decide

/-- The rest of an array begins with a comma or the bracket that ends it. -/
theorem delimited_writeItems (vs : List Json) (rest : List Char) :
    Delimited (writeItems vs ++ ']' :: rest) := by
  cases vs with
  | nil => exact delimited_cons (by simp) _
  | cons v vs => exact delimited_cons (Or.inl rfl) _

/-- The rest of an object begins with a comma or the brace that ends it. -/
theorem delimited_writeEntries (es : List (String × Json)) (rest : List Char) :
    Delimited (writeEntries es ++ '\x7d' :: rest) := by
  cases es with
  | nil => exact delimited_cons (by simp) _
  | cons e es => exact delimited_cons (Or.inl rfl) _

/-- Items behind others are read up to the end of their array. -/
theorem run_writeItems {vs : List Json} (h : ∀ v ∈ vs, ReadsValue v) (seen : List Json)
    (fs : List Frame) (rest : List Char) :
    run ⟨.array seen :: fs, .more⟩ (writeItems vs ++ ']' :: rest)
      = (put fs (.array (seen.reverse ++ vs))).bind (·.run rest) := by
  induction vs generalizing seen with
  | nil =>
      rw [List.append_nil]
      exact run_token (c := ']') (t := .closeArray) rfl rfl
  | cons v vs ih =>
      rw [writeItems, List.cons_append, List.cons_append, List.append_assoc]
      calc run ⟨.array seen :: fs, .more⟩ (',' :: (v.write ++ (writeItems vs ++ ']' :: rest)))
        _ = run ⟨.array seen :: fs, .value⟩ (v.write ++ (writeItems vs ++ ']' :: rest)) :=
            run_step .comma rfl rfl rfl
        _ = run ⟨.array (v :: seen) :: fs, .more⟩ (writeItems vs ++ ']' :: rest) :=
            h v (List.mem_cons_self ..) (Or.inl rfl) (delimited_writeItems vs rest)
        _ = (put fs (.array (seen.reverse ++ v :: vs))).bind (·.run rest) := by
            rw [ih (fun w hw => h w (List.mem_cons_of_mem _ hw)), List.reverse_cons,
              List.append_assoc]
            rfl

/-- An entry is read behind those before it. -/
theorem run_entry {k : String} {v : Json} (h : ReadsValue v) {seen : List (String × Json)}
    {fs : List Frame} {e : Expectation} (he : e = .key ∨ e = .keyOrEnd) {rest : List Char}
    (hr : Delimited rest) :
    run ⟨.object seen true :: fs, e⟩ (quoted k ++ ':' :: (v.write ++ rest))
      = run ⟨.object ((k, v) :: seen) true :: fs, .more⟩ rest := by
  obtain ⟨cs, hcs, htoken⟩ := Token.read_quoted k (':' :: (v.write ++ rest))
  rw [hcs]
  calc run ⟨.object seen true :: fs, e⟩ ('"' :: cs)
    _ = run ⟨.entry seen true k :: fs, .colon⟩ (':' :: (v.write ++ rest)) :=
        run_step _ rfl htoken (by rcases he with rfl | rfl <;> rfl)
    _ = run ⟨.entry seen true k :: fs, .value⟩ (v.write ++ rest) := run_step .colon rfl rfl rfl
    _ = run ⟨.object ((k, v) :: seen) true :: fs, .more⟩ rest := h (Or.inl rfl) hr

/-- The rest of an object is taken in entry by entry, up to its end. -/
theorem run_writeEntries {es : List (String × Json)} (h : ∀ e ∈ es, ReadsValue e.2)
    (seen : List (String × Json)) (fs : List Frame) (rest : List Char) :
    run ⟨.object seen true :: fs, .more⟩ (writeEntries es ++ '\x7d' :: rest)
      = (put fs (.object (seen.reverse ++ es))).bind (·.run rest) := by
  induction es generalizing seen with
  | nil =>
      rw [List.append_nil]
      exact run_token (c := '\x7d') (t := .closeObject) rfl rfl
  | cons e es ih =>
      obtain ⟨k, v⟩ := e
      have hassoc : writeEntries ((k, v) :: es) ++ '\x7d' :: rest
          = ',' :: (quoted k ++ ':' :: (v.write ++ (writeEntries es ++ '\x7d' :: rest))) := by
        simp [writeEntries]
      rw [hassoc]
      -- a comma, one entry, and then the rest with one more entry seen
      calc run ⟨.object seen true :: fs, .more⟩
            (',' :: (quoted k ++ ':' :: (v.write ++ (writeEntries es ++ '\x7d' :: rest))))
        _ = run ⟨.object seen true :: fs, .key⟩
              (quoted k ++ ':' :: (v.write ++ (writeEntries es ++ '\x7d' :: rest))) :=
            run_step .comma rfl rfl rfl
        _ = run ⟨.object ((k, v) :: seen) true :: fs, .more⟩ (writeEntries es ++ '\x7d' :: rest) :=
            run_entry (h (k, v) (List.mem_cons_self ..)) (Or.inl rfl)
              (delimited_writeEntries es rest)
        _ = (put fs (.object (seen.reverse ++ (k, v) :: es))).bind (·.run rest) := by
            rw [ih (fun w hw => h w (List.mem_cons_of_mem _ hw)), List.reverse_cons,
              List.append_assoc]
            rfl

/-- An array is read if each of its items is. -/
theorem readsValue_array {vs : List Json} (h : ∀ v ∈ vs, ReadsValue v) :
    ReadsValue (.array vs) := by
  intro b rest hb _
  have hopen : b.step .openArray = some ⟨.array [] :: b.frames, .valueOrEnd⟩ :=
    step_of_awaitsValue hb rfl
  cases vs with
  | nil =>
      calc b.run ('[' :: ']' :: rest)
        _ = run ⟨.array [] :: b.frames, .valueOrEnd⟩ (']' :: rest) :=
            run_step .openArray rfl rfl hopen
        _ = (put b.frames (.array [])).bind (·.run rest) :=
            run_token (c := ']') (t := .closeArray) rfl rfl
  | cons v vs =>
      -- the first item has no comma in front, the others do
      have hassoc : write (.array (v :: vs)) ++ rest
          = '[' :: (v.write ++ (writeItems vs ++ ']' :: rest)) := by
        simp [write]
      rw [hassoc]
      calc b.run ('[' :: (v.write ++ (writeItems vs ++ ']' :: rest)))
        _ = run ⟨.array [] :: b.frames, .valueOrEnd⟩
              (v.write ++ (writeItems vs ++ ']' :: rest)) :=
            run_step .openArray rfl rfl hopen
        _ = run ⟨.array [v] :: b.frames, .more⟩ (writeItems vs ++ ']' :: rest) :=
            h v (List.mem_cons_self ..) (Or.inr rfl) (delimited_writeItems vs rest)
        _ = (put b.frames (.array (v :: vs))).bind (·.run rest) :=
            run_writeItems (fun w hw => h w (List.mem_cons_of_mem _ hw)) [v] _ _

/-- An object is read if the value of each of its keys is. -/
theorem readsValue_object {es : List (String × Json)} (h : ∀ e ∈ es, ReadsValue e.2) :
    ReadsValue (.object es) := by
  intro b rest hb _
  have hopen : b.step .openObject = some ⟨.object [] true :: b.frames, .keyOrEnd⟩ :=
    step_of_awaitsValue hb rfl
  cases es with
  | nil =>
      calc b.run ('\x7b' :: '\x7d' :: rest)
        _ = run ⟨.object [] true :: b.frames, .keyOrEnd⟩ ('\x7d' :: rest) :=
            run_step .openObject rfl rfl hopen
        _ = (put b.frames (.object [])).bind (·.run rest) :=
            run_token (c := '\x7d') (t := .closeObject) rfl rfl
  | cons e es =>
      obtain ⟨k, v⟩ := e
      -- the first entry has no comma in front, the others do
      have hassoc : write (.object ((k, v) :: es)) ++ rest
          = '\x7b' :: (quoted k ++ ':' :: (v.write ++ (writeEntries es ++ '\x7d' :: rest))) := by
        simp [write]
      rw [hassoc]
      calc b.run ('\x7b' ::
            (quoted k ++ ':' :: (v.write ++ (writeEntries es ++ '\x7d' :: rest))))
        _ = run ⟨.object [] true :: b.frames, .keyOrEnd⟩
              (quoted k ++ ':' :: (v.write ++ (writeEntries es ++ '\x7d' :: rest))) :=
            run_step .openObject rfl rfl hopen
        _ = run ⟨.object [(k, v)] true :: b.frames, .more⟩
              (writeEntries es ++ '\x7d' :: rest) :=
            run_entry (h (k, v) (List.mem_cons_self ..)) (Or.inr rfl)
              (delimited_writeEntries es rest)
        _ = (put b.frames (.object ((k, v) :: es))).bind (·.run rest) :=
            run_writeEntries (fun w hw => h w (List.mem_cons_of_mem _ hw)) [(k, v)] _ _

/-- **Reading undoes writing**: wherever a value may come, the text of an exact
    value puts that value there. -/
theorem readsValue_of_exact {v : Json} (h : Exact v) : ReadsValue v := by
  induction h with
  | null =>
      intro b rest hb _
      rw [← step_scalar hb]
      exact run_token (c := 'n') rfl rfl
  | bool truth =>
      intro b rest hb _
      rw [← step_scalar hb]
      cases truth with
      | true => exact run_token (c := 't') rfl rfl
      | false => exact run_token (c := 'f') rfl rfl
  | @int n hn =>
      intro b rest hb hr
      obtain ⟨c, cs, hcs, hspace, htoken⟩ := Token.read_integer hn hr
      rw [← step_scalar hb]
      show b.run (integer n ++ rest) = _
      rw [hcs, run_token hspace htoken]
  | string s =>
      intro b rest hb _
      obtain ⟨cs, hcs, htoken⟩ := Token.read_quoted s rest
      rw [← step_string hb]
      show b.run (quoted s ++ rest) = _
      rw [hcs, run_token rfl htoken]
  | array _ ih => exact readsValue_array ih
  | object _ ih => exact readsValue_object ih

end Builder

/-- **A text that was written is read back**: the text of an exact value is
    read to that value. -/
theorem read?_compact {v : Json} (h : Exact v) : read? (compact v) = some v := by
  have hrun : Builder.run {} (v.write ++ []) = (Builder.put [] v).bind (·.run []) :=
    Builder.readsValue_of_exact h (Or.inl rfl) fun c hc => nomatch hc
  rw [List.append_nil] at hrun
  show Builder.run {} (String.ofList v.write).toList = _
  rw [String.toList_ofList, hrun]
  exact Builder.run_nil _

end ModInstall.Json
