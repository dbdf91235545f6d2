import ModInstall.Markup.Entity
import ModInstall.Proofs.Traversal

/-! # Escaped text

    `escape` writes the five characters that have names as entities and leaves
    every other character alone.  Reading undoes it (`unescape_escape`), also
    in front of further text, so that text may be written piece by piece; and
    what was escaped holds none of the characters that end a run of text or a
    quoted value. -/

namespace ModInstall.Markup

/-- A character as it is written in text and in attribute values. -/
def escapeChar (c : Char) : List Char :=
  if c = '&' then ['&', 'a', 'm', 'p', ';']
  else if c = '<' then ['&', 'l', 't', ';']
  else if c = '>' then ['&', 'g', 't', ';']
  else if c = '"' then ['&', 'q', 'u', 'o', 't', ';']
  else if c = '\'' then ['&', 'a', 'p', 'o', 's', ';']
  else [c]

/-- A text with the five characters that have names written as entities. -/
def escape (cs : List Char) : List Char :=
  cs.flatMap escapeChar

/-- The characters that are written as entities. -/
def named : List Char := ['&', '<', '>', '"', '\'']

/-- All but the five characters are written as they are. -/
theorem escapeChar_of_not_mem {c : Char} (h : c ∉ named) : escapeChar c = [c] := by
  simp only [named, List.mem_cons, List.not_mem_nil, or_false, not_or] at h
  simp [escapeChar, h]

/-- What ends text or a value does not occur in it. -/
theorem not_mem_escape {c : Char} (h : c ∈ ['<', '>', '"', '\'']) (cs : List Char) :
    c ∉ escape cs := by
  intro hmem
  obtain ⟨d, -, hd⟩ := List.mem_flatMap.mp hmem
  by_cases hn : d ∈ named
  · have hnone : ∀ d ∈ named, ∀ c ∈ ['<', '>', '"', '\''], c ∉ escapeChar d := by
      simp [named, escapeChar]
    exact hnone d hn c h hd
  · rw [escapeChar_of_not_mem hn] at hd
    obtain rfl := List.mem_singleton.mp hd
    exact hn (List.mem_cons_of_mem _ h)

/-- Escaping makes no character vanish. -/
theorem length_escapeChar_pos (c : Char) : 0 < (escapeChar c).length := by
  by_cases hn : c ∈ named
  · have hnamed : ∀ c ∈ named, 0 < (escapeChar c).length := by simp [named, escapeChar]
    exact hnamed c hn
  · rw [escapeChar_of_not_mem hn]
    exact Nat.one_pos

/-- Escaping makes no text vanish. -/
theorem escape_eq_nil_iff {cs : List Char} : escape cs = [] ↔ cs = [] := by
  cases cs with
  | nil => simp [escape]
  | cons c cs =>
      have := length_escapeChar_pos c
      simp [escape, List.ne_nil_of_length_pos this]

/-- Escaping makes no text shorter. -/
theorem length_le_length_escape (cs : List Char) : cs.length ≤ (escape cs).length := by
  induction cs with
  | nil => exact Nat.le_refl _
  | cons c cs ih =>
      have := length_escapeChar_pos c
      rw [escape, List.flatMap_cons, List.length_append, List.length_cons]
      rw [escape] at ih
      omega

/-- Only a text without the five characters is written as it is: an entity is
    longer than its character. -/
theorem escape_eq_self_iff {cs : List Char} : escape cs = cs ↔ ∀ c ∈ cs, c ∉ named := by
  induction cs with
  | nil => simp [escape]
  | cons c cs ih =>
      rw [List.forall_mem_cons, ← ih, escape, List.flatMap_cons]
      by_cases hn : c ∈ named
      · have hnamed : ∀ c ∈ named, 1 < (escapeChar c).length := by simp [named, escapeChar]
        have hlong := hnamed c hn
        refine ⟨fun h => ?_, fun h => absurd hn h.1⟩
        have hlength := congrArg List.length h
        have := length_le_length_escape cs
        rw [List.length_append, List.length_cons] at hlength
        rw [escape] at this
        omega
      · simp [escapeChar_of_not_mem hn, hn, escape]

namespace Entity

variable {n m : Nat} {cs name rest : List Char}

/-- Unescaping, without what shows that it ends. -/
theorem unescapeFrom_eq (n : Nat) (cs : List Char) :
    unescapeFrom n cs =
      match cs.dropWhile (· != '&') with
      | [] => .ok cs
      | _ :: r =>
          match r.dropWhile inside with
          | ';' :: rest => do
              let c ← resolve (n - utf8Length r) (r.takeWhile inside)
              let more ← unescapeFrom n rest
              return cs.takeWhile (· != '&') ++ c :: more
          | _ => .error (.unterminated (n - utf8Length r - 1) n) := by
  rw [unescapeFrom]
  split
  · next h => rw [h]
  · next h =>
      rw [h]
      dsimp only
      split
      · next hr =>
          rw [hr]
          rfl
      · next hr =>
          split
          · next he => exact absurd he (hr _)
          · rfl

/-- What an entity stands for does not depend on where it stands. -/
theorem resolve_toOption (n m : Nat) (name : List Char) :
    (resolve n name).toOption = (resolve m name).toOption := by
  unfold resolve
  split
  · rfl
  · cases named? name <;> rfl

/-- Whether a text can be unescaped, and to what, does not depend on the
    positions that errors would name. -/
theorem unescapeFrom_toOption (n m : Nat) (cs : List Char) :
    (unescapeFrom n cs).toOption = (unescapeFrom m cs).toOption := by
  induction hlen : cs.length using Nat.strongRecOn generalizing cs with
  | ind k ih =>
      rw [unescapeFrom_eq n, unescapeFrom_eq m]
      have hshort₁ := length_dropWhile_le (· != '&') cs
      cases hr : cs.dropWhile (· != '&') with
      | nil => rfl
      | cons a r =>
          have hshort₂ := length_dropWhile_le inside r
          dsimp only
          split
          · next rest hrest =>
              rw [hr, List.length_cons] at hshort₁
              rw [hrest, List.length_cons] at hshort₂
              have hchar := resolve_toOption (n - utf8Length r) (m - utf8Length r)
                (r.takeWhile inside)
              have hmore := ih rest.length (by omega) rest rfl
              simp only [toOption_bind, hchar, hmore]
          · rfl

/-- A character that begins no entity is kept. -/
theorem unescapeFrom_cons {c : Char} (h : c ≠ '&') (n : Nat) (cs : List Char) :
    unescapeFrom n (c :: cs) = (unescapeFrom n cs).map (c :: ·) := by
  have hc : (c != '&') = true := bne_iff_ne.mpr h
  have hdrop : (c :: cs).dropWhile (· != '&') = cs.dropWhile (· != '&') :=
    List.dropWhile_cons_of_pos hc
  have htake : (c :: cs).takeWhile (· != '&') = c :: cs.takeWhile (· != '&') :=
    List.takeWhile_cons_of_pos hc
  rw [unescapeFrom_eq, unescapeFrom_eq n cs, hdrop, htake]
  cases cs.dropWhile (· != '&') with
  | nil => rfl
  | cons a r =>
      dsimp only
      split
      · next rest _ =>
          cases resolve (n - utf8Length r) (r.takeWhile inside) <;>
            cases unescapeFrom n rest <;> rfl
      · rfl

/-- An entity at the front is resolved first. -/
theorem unescapeFrom_entity (h : ∀ c ∈ name, inside c = true) :
    unescapeFrom n ('&' :: name ++ ';' :: rest) = (do
      let c ← resolve (n - utf8Length (name ++ ';' :: rest)) name
      let more ← unescapeFrom n rest
      return c :: more) := by
  have hamp : ('&' :: name ++ ';' :: rest).dropWhile (· != '&')
      = '&' :: (name ++ ';' :: rest) := rfl
  have hsemi : (name ++ ';' :: rest).dropWhile inside = ';' :: rest := by
    rw [List.dropWhile_append_of_pos h]
    rfl
  have htake : (name ++ ';' :: rest).takeWhile inside = name := by
    rw [List.takeWhile_append_of_pos h]
    exact List.append_nil _
  rw [unescapeFrom_eq, hamp]
  dsimp only
  rw [hsemi, htake]
  rfl

/-- A character that was escaped comes back, whatever follows. -/
theorem unescapeFrom_escapeChar (c : Char) :
    unescapeFrom n (escapeChar c ++ rest) = (unescapeFrom n rest).map (c :: ·) := by
  by_cases hn : c ∈ named
  · -- each of the five entities is between its `&` and its `;`
    have hentity : ∀ name : List Char, (∀ d ∈ name, inside d = true) →
        (∀ start, resolve start name = .ok c) →
        unescapeFrom n ('&' :: name ++ ';' :: rest) = (unescapeFrom n rest).map (c :: ·) := by
      intro name hinside hresolve
      rw [unescapeFrom_entity hinside, hresolve]
      cases unescapeFrom n rest <;> rfl
    simp only [named, List.mem_cons, List.not_mem_nil, or_false] at hn
    rcases hn with rfl | rfl | rfl | rfl | rfl
    · exact hentity ['a', 'm', 'p'] (by simp [inside]) fun _ => rfl
    · exact hentity ['l', 't'] (by simp [inside]) fun _ => rfl
    · exact hentity ['g', 't'] (by simp [inside]) fun _ => rfl
    · exact hentity ['q', 'u', 'o', 't'] (by simp [inside]) fun _ => rfl
    · exact hentity ['a', 'p', 'o', 's'] (by simp [inside]) fun _ => rfl
  · rw [escapeChar_of_not_mem hn]
    refine unescapeFrom_cons (fun he => hn ?_) n rest
    rw [he]
    exact List.mem_cons_self ..

/-- A text that was escaped comes back, whatever follows. -/
theorem unescapeFrom_escape (cs : List Char) :
    unescapeFrom n (escape cs ++ rest) = (unescapeFrom n rest).map (cs ++ ·) := by
  induction cs with
  | nil => cases h : unescapeFrom n rest <;> simp [escape, h, Except.map]
  | cons c cs ih =>
      rw [escape, List.flatMap_cons, List.append_assoc, unescapeFrom_escapeChar]
      rw [escape] at ih
      rw [ih]
      cases unescapeFrom n rest <;> rfl

end Entity

/-- Escaped text is unescaped to what it was. -/
theorem unescape_escape (cs : List Char) : unescape (escape cs) = .ok cs := by
  have hnil : Entity.unescapeFrom (utf8Length (escape cs)) [] = .ok [] := by
    rw [Entity.unescapeFrom_eq]
    rfl
  have hescape := @Entity.unescapeFrom_escape (utf8Length (escape cs)) [] cs
  rw [List.append_nil, hnil] at hescape
  rw [unescape, hescape]
  exact congrArg Except.ok (List.append_nil cs)

/-- Escaped text in front of a text is unescaped on its own. -/
theorem unescape_escape_append {rest t : List Char} (h : unescape rest = .ok t) (cs : List Char) :
    unescape (escape cs ++ rest) = .ok (cs ++ t) := by
  have hrest := congrArg Except.toOption h
  rw [unescape, Entity.unescapeFrom_toOption _ (utf8Length (escape cs ++ rest))] at hrest
  rw [unescape, Entity.unescapeFrom_escape]
  cases hr : Entity.unescapeFrom (utf8Length (escape cs ++ rest)) rest with
  | error e => exact nomatch hr ▸ hrest
  | ok t' =>
      rw [hr] at hrest
      exact congrArg (fun t => Except.ok (cs ++ t)) (Option.some.inj hrest)

end ModInstall.Markup
