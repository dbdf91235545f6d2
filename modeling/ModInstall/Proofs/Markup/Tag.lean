import Mathlib.Data.List.TakeWhile
import ModInstall.Markup.Document
import ModInstall.Proofs.Markup.Escape
import ModInstall.Proofs.Markup.Lexing

/-! # Written tags

    `writeTag` writes a name and attributes as they stand in a start tag: one
    space before each attribute, values escaped and in double quotes.  For
    names of letters the tag is read as a tag, and the attributes are read
    back, in order and with the values that were written. -/

namespace ModInstall.Markup

/-- A word of letters. -/
def IsWord (cs : List Char) : Prop :=
  cs ≠ [] ∧ ∀ c ∈ cs, c.isAlpha = true

instance (cs : List Char) : Decidable (IsWord cs) :=
  @instDecidableAnd _ _ _ (List.decidableBAll _ cs)

/-- An attribute as it is written in a tag. -/
def writeAttribute (a : String × String) : List Char :=
  ' ' :: (a.1.toList ++ '=' :: '"' :: (escape a.2.toList ++ ['"']))

/-- A name and attributes as they are written in a tag. -/
def writeTag (name : String) (attributes : List (String × String)) : List Char :=
  name.toList ++ attributes.flatMap writeAttribute

/-- A name and attributes that come back as they are: they are named by words,
    no attribute is there twice, and none declares a namespace. -/
structure IsWritable (name : String) (attributes : List (String × String)) : Prop where
  name  : IsWord name.toList
  keys  : ∀ a ∈ attributes, IsWord a.1.toList ∧ a.1 ≠ "xmlns"
  nodup : (attributes.map Prod.fst).Nodup

namespace IsWritable

variable {name key : String}

theorem nil (h : IsWord name.toList) : IsWritable name [] :=
  ⟨h, by simp, by simp⟩

theorem singleton (h : IsWord name.toList) (hkey : IsWord key.toList) (hns : key ≠ "xmlns")
    (value : String) : IsWritable name [(key, value)] :=
  ⟨h, by simp [hkey, hns], by simp⟩

/-- Each attribute is found under its key, since no other has it. -/
theorem lookup_eq {attributes : List (String × String)} {value : String}
    (h : IsWritable name attributes) (hmem : (key, value) ∈ attributes) :
    attributes.lookup key = some value := by
  have hnodup := h.nodup
  clear h
  induction attributes with
  | nil => cases hmem
  | cons a as ih =>
      obtain ⟨hdifferent, hnodup⟩ := List.nodup_cons.mp hnodup
      rcases List.mem_cons.mp hmem with rfl | hmem
      · exact List.lookup_cons_self
      · have hne : key ≠ a.1 := fun he => hdifferent (he ▸ List.mem_map_of_mem hmem)
        rw [List.lookup_cons, beq_false_of_ne hne]
        exact ih hmem hnodup

end IsWritable

theorem ne_of_isAlpha {c d : Char} (hc : c.isAlpha = true) (hd : d.isAlpha = false) : c ≠ d := by
  rintro rfl
  exact absurd hc (by rw [hd]; decide)

theorem isSpace_of_isAlpha {c : Char} (h : c.isAlpha = true) : isSpace c = false := by
  simp [isSpace, ne_of_isAlpha h]

namespace IsWord

variable {cs : List Char}

/-- A word holds nothing but letters. -/
theorem not_mem (h : IsWord cs) {d : Char} (hd : d.isAlpha = false) : d ∉ cs :=
  fun hmem => absurd (h.2 d hmem) (by rw [hd]; decide)

/-- A word begins with a letter. -/
theorem exists_cons (h : IsWord cs) : ∃ c rest, cs = c :: rest ∧ c.isAlpha = true := by
  cases cs with
  | nil => exact absurd rfl h.1
  | cons c rest => exact ⟨c, rest, rfl, h.2 c (List.mem_cons_self ..)⟩

/-- A word has no prefix to cut off. -/
theorem localName_eq (h : IsWord cs) : localName cs = cs := by
  have hnone : cs.dropWhile (· != ':') = [] := by
    rw [List.dropWhile_eq_nil_iff]
    intro c hc
    exact bne_iff_ne.mpr (ne_of_isAlpha (h.2 c hc) rfl)
  rw [localName, hnone]

/-- A word declares no namespace, unless it is `xmlns` itself. -/
theorem declaresNamespace_eq (h : IsWord cs) (hns : cs ≠ ['x', 'm', 'l', 'n', 's']) :
    Attribute.declaresNamespace cs = false := by
  have hprefix : ['x', 'm', 'l', 'n', 's', ':'].isPrefixOf cs = false := by
    rw [← Bool.not_eq_true, List.isPrefixOf_iff_prefix]
    exact fun hp => h.not_mem (by decide : ':'.isAlpha = false) (hp.subset (by decide))
  simp [Attribute.declaresNamespace, hns, hprefix]

/-- The name in an end tag. -/
theorem endName_eq (h : IsWord cs) : Builder.endName cs = cs := by
  obtain ⟨c, rest, rfl, hc⟩ := h.exists_cons
  have hlast : (c :: rest).reverse.dropWhile isSpace = (c :: rest).reverse := by
    rw [List.dropWhile_eq_self_iff]
    intro hpos
    rw [isSpace_of_isAlpha (h.2 _ (List.mem_reverse.mp (List.getElem_mem hpos)))]
    decide
  rw [Builder.endName, hlast, List.reverse_reverse, ite_self]

end IsWord

/-! ## Attributes are read back -/

namespace Attribute

variable {key value : String} {n : Nat} {seen : List (List Char × Nat)} {rest : List Char}

/-- One attribute at the front, and what is read behind it. -/
theorem readFrom_of_readValue {cs r text raw : List Char} {k : Char}
    (hk : cs.dropWhile isSpace = k :: r) (he : readEquals n (r.dropWhile inKey) = .ok text)
    (hnew : seen.lookup (k :: r.takeWhile inKey) = none)
    (hv : readValue n text = .ok (raw, rest))
    (hns : declaresNamespace (k :: r.takeWhile inKey) = false) :
    readFrom n seen cs = do
      let value ← (unescape raw).mapError .entity
      let more ← readFrom n ((k :: r.takeWhile inKey, n - utf8Length (k :: r)) :: seen) rest
      return (String.ofList (localName (k :: r.takeWhile inKey)), String.ofList value) :: more := by
  -- of each step only the branch that its hypothesis names is left
  rw [readFrom]
  split
  · next h => cases h.symm.trans hk
  · next h =>
      obtain ⟨rfl, rfl⟩ := List.cons.inj (h.symm.trans hk)
      split
      · next h => cases h.symm.trans he
      · next h =>
          obtain rfl := Except.ok.inj (h.symm.trans he)
          dsimp only
          rw [hnew]
          dsimp only
          split
          · next h => cases h.symm.trans hv
          · next h =>
              obtain ⟨rfl, rfl⟩ := Prod.mk.inj (Except.ok.inj (h.symm.trans hv))
              rw [hns]
              rfl

/-- A value between double quotes is read up to the quote behind it, since
    escaping leaves none inside. -/
theorem readValue_escape (n : Nat) (cs rest : List Char) :
    readValue n ('"' :: (escape cs ++ '"' :: rest)) = .ok (escape cs, rest) := by
  have hinside : ∀ c ∈ escape cs, (c != '"') = true := by
    intro c hc
    exact bne_iff_ne.mpr fun he => not_mem_escape (by decide : '"' ∈ _) cs (he ▸ hc)
  have hspace : ('"' :: (escape cs ++ '"' :: rest)).dropWhile isSpace
      = '"' :: (escape cs ++ '"' :: rest) := rfl
  rw [readValue, hspace]
  simp [List.dropWhile_append_of_pos hinside, List.takeWhile_append_of_pos hinside]

/-- An attribute is read to what was written, its key being new. -/
theorem readFrom_writeAttribute (n : Nat) (value : String) (rest : List Char)
    (hkey : IsWord key.toList) (hns : key ≠ "xmlns") (hseen : seen.lookup key.toList = none) :
    ∃ position, readFrom n seen (writeAttribute (key, value) ++ rest)
      = (readFrom n ((key.toList, position) :: seen) rest).map ((key, value) :: ·) := by
  obtain ⟨k, ks, hks, hk⟩ := hkey.exists_cons
  have hinside : ∀ c ∈ ks, inKey c = true := by
    intro c hc
    have hc : c.isAlpha = true := hkey.2 c (hks ▸ List.mem_cons_of_mem k hc)
    simp [inKey, isSpace_of_isAlpha hc, ne_of_isAlpha hc]
  -- what stands behind the key
  let behind := '=' :: '"' :: (escape value.toList ++ '"' :: rest)
  have htake : (ks ++ behind).takeWhile inKey = ks := by
    rw [List.takeWhile_append_of_pos hinside]
    exact List.append_nil ks
  have hstart : (writeAttribute (key, value) ++ rest).dropWhile isSpace = k :: (ks ++ behind) := by
    have hsplit : writeAttribute (key, value) ++ rest = ' ' :: k :: (ks ++ behind) := by
      simp [writeAttribute, hks, behind]
    rw [hsplit, List.dropWhile_cons_of_pos (by decide),
      List.dropWhile_cons_of_neg (by simp [isSpace_of_isAlpha hk])]
  have hequals : readEquals n ((ks ++ behind).dropWhile inKey)
      = .ok ('"' :: (escape value.toList ++ '"' :: rest)) := by
    rw [List.dropWhile_append_of_pos hinside]
    rfl
  have hword : k :: (ks ++ behind).takeWhile inKey = key.toList := by rw [htake, hks]
  have hname : key.toList ≠ ['x', 'm', 'l', 'n', 's'] := fun h => hns (String.toList_inj.mp h)
  refine ⟨n - utf8Length (k :: (ks ++ behind)), ?_⟩
  rw [readFrom_of_readValue hstart hequals (by rw [hword, hseen])
    (readValue_escape n value.toList rest) (by rw [hword, hkey.declaresNamespace_eq hname]),
    hword, unescape_escape, hkey.localName_eq, String.ofList_toList]
  cases readFrom n _ rest with
  | error e => rfl
  | ok more => exact congrArg (fun v => Except.ok ((key, v) :: more)) String.ofList_toList

/-- Attributes are read to what was written, if their keys are new and
    different. -/
theorem readFrom_writeAttributes {attributes : List (String × String)}
    (hkeys : ∀ a ∈ attributes, IsWord a.1.toList ∧ a.1 ≠ "xmlns")
    (hnodup : (attributes.map Prod.fst).Nodup)
    (hseen : ∀ a ∈ attributes, seen.lookup a.1.toList = none) :
    readFrom n seen (attributes.flatMap writeAttribute) = .ok attributes := by
  induction attributes generalizing seen with
  | nil => rw [readFrom]; rfl
  | cons a as ih =>
      obtain ⟨⟨hword, hns⟩, hkeys⟩ := List.forall_mem_cons.mp hkeys
      obtain ⟨hnew, hseen⟩ := List.forall_mem_cons.mp hseen
      obtain ⟨hdifferent, hnodup⟩ := List.nodup_cons.mp hnodup
      obtain ⟨position, hread⟩ :=
        readFrom_writeAttribute n a.2 (as.flatMap writeAttribute) hword hns hnew
      rw [List.flatMap_cons, hread, ih hkeys hnodup]
      · rfl
      · intro b hb
        have hne : b.1.toList ≠ a.1.toList := fun he =>
          hdifferent (String.toList_inj.mp he ▸ List.mem_map_of_mem hb)
        rw [List.lookup_cons, beq_false_of_ne hne]
        exact hseen b hb

end Attribute

/-! ## Tags are read back -/

variable {name : String} {attributes : List (String × String)}

/-- A written tag is cut behind its name. -/
theorem span_writeTag (h : IsWritable name attributes) :
    (writeTag name attributes).takeWhile (!isSpace ·) = name.toList ∧
      (writeTag name attributes).dropWhile (!isSpace ·) = attributes.flatMap writeAttribute := by
  have hname : ∀ c ∈ name.toList, (!isSpace c) = true := fun c hc => by
    rw [isSpace_of_isAlpha (h.name.2 c hc)]
    rfl
  rw [writeTag, List.takeWhile_append_of_pos hname, List.dropWhile_append_of_pos hname]
  cases attributes with
  | nil => simp
  | cons a as => exact ⟨List.append_nil _, rfl⟩

/-- The name ends at the first space. -/
theorem tagName_writeTag (h : IsWritable name attributes) :
    Builder.tagName (writeTag name attributes) = name.toList :=
  (span_writeTag h).1

/-- **Attributes are read back as they were written.** -/
theorem Attribute.read_writeTag (h : IsWritable name attributes) :
    read (writeTag name attributes) = .ok attributes := by
  rw [read, (span_writeTag h).2]
  exact readFrom_writeAttributes h.keys h.nodup fun _ _ => rfl

namespace Lexeme

/-- A part of a tag that leaves no quote open and has no `>` outside of
    quotes. -/
def IsTagPart (cs : List Char) : Prop :=
  Closer.tag.Passes none cs ∧ cs.foldl Closer.tag.step none = none

namespace IsTagPart

variable {cs ds : List Char}

/-- Parts of a tag make a part. -/
theorem append (hc : IsTagPart cs) (hd : IsTagPart ds) : IsTagPart (cs ++ ds) := by
  refine ⟨Closer.passes_append.mpr ⟨hc.1, ?_⟩, ?_⟩
  · rw [hc.2]
    exact hd.1
  · rw [List.foldl_append, hc.2]
    exact hd.2

/-- What has no quote and no `>` is a part. -/
theorem plain (h : ∀ c ∈ cs, c ∉ ['"', '\'', '>']) : IsTagPart cs := by
  refine ⟨Closer.passes_of_not_mem fun hmem => h _ hmem (by decide), ?_⟩
  induction cs with
  | nil => rfl
  | cons c cs ih =>
      obtain ⟨hc, hcs⟩ := List.forall_mem_cons.mp h
      have hquote : ¬(c = '"' ∨ c = '\'') := by
        rintro (rfl | rfl) <;> exact hc (by decide)
      rw [List.foldl_cons, Closer.tag]
      dsimp only
      rw [if_neg hquote]
      exact ih hcs

theorem char {c : Char} (h : c ∉ ['"', '\'', '>']) : IsTagPart [c] :=
  plain (List.forall_mem_singleton.mpr h)

theorem quoted (h : ∀ c ∈ cs, c ∉ ['"', '>']) : IsTagPart ('"' :: (cs ++ ['"'])) := by
  have hquote : cs.foldl Closer.tag.step (some '"') = some '"' := by
    induction cs with
    | nil => rfl
    | cons c cs ih =>
        obtain ⟨hc, hcs⟩ := List.forall_mem_cons.mp h
        have hne : c ≠ '"' := fun he => hc (he ▸ List.mem_cons_self ..)
        rw [List.foldl_cons, Closer.tag]
        dsimp only
        rw [if_neg hne]
        exact ih hcs
  refine ⟨⟨nofun, Closer.passes_append.mpr ⟨?_, nofun, trivial⟩⟩, ?_⟩
  · exact Closer.passes_of_not_mem fun hmem => h _ hmem (by decide)
  · show (cs ++ ['"']).foldl Closer.tag.step (some '"') = none
    rw [List.foldl_append, hquote]
    rfl

theorem word (h : IsWord cs) : IsTagPart cs := by
  have hplain : ∀ c ∈ ['"', '\'', '>'], ¬c.isAlpha = true := by simp
  exact plain fun c hc hmem => hplain c hmem (h.2 c hc)

theorem writeAttribute {a : String × String} (h : IsWord a.1.toList) :
    IsTagPart (Markup.writeAttribute a) := by
  have hspace : IsTagPart [' '] := char (by decide)
  have hequals : IsTagPart ['='] := char (by decide)
  have hvalue : IsTagPart ('"' :: (escape a.2.toList ++ ['"'])) := by
    refine quoted fun c hc hmem => not_mem_escape ?_ a.2.toList hc
    simp only [List.mem_cons, List.not_mem_nil, or_false] at hmem ⊢
    rcases hmem with rfl | rfl <;> decide
  exact hspace.append ((word h).append (hequals.append hvalue))

theorem writeTag (h : IsWritable name attributes) :
    IsTagPart (Markup.writeTag name attributes) := by
  refine (word h.name).append ?_
  have hkeys := h.keys
  clear h
  induction attributes with
  | nil => exact ⟨trivial, rfl⟩
  | cons a as ih =>
      obtain ⟨ha, has⟩ := List.forall_mem_cons.mp hkeys
      rw [List.flatMap_cons]
      exact (writeAttribute ha.1).append (ih has)

end IsTagPart

/-- What begins with a letter begins as a start tag does. -/
theorem isTag_of_word {cs rest : List Char} (h : IsWord cs) (hpart : IsTagPart (cs ++ rest)) :
    IsTag (cs ++ rest) ∧ (cs ++ rest).head? ≠ some '/' := by
  obtain ⟨c, cs, rfl, hc⟩ := h.exists_cons
  refine ⟨⟨hpart.1, hpart.2, fun d hd => ?_⟩, fun he => ?_⟩
  · obtain rfl := Option.some.inj hd
    exact ⟨ne_of_isAlpha hc rfl, ne_of_isAlpha hc rfl⟩
  · exact ne_of_isAlpha hc rfl (Option.some.inj he)

/-- A written tag ends with a letter or a quote. -/
theorem getLast?_writeTag_ne (h : IsWritable name attributes) :
    (writeTag name attributes).getLast? ≠ some '/' := by
  rcases attributes.eq_nil_or_concat with rfl | ⟨as, a, rfl⟩
  · intro he
    rw [writeTag, List.flatMap_nil, List.append_nil] at he
    exact h.name.not_mem (by decide : '/'.isAlpha = false) (List.mem_of_getLast? he)
  · have hquote : writeAttribute a
        = (' ' :: (a.1.toList ++ '=' :: '"' :: escape a.2.toList)) ++ ['"'] := by
      simp [writeAttribute]
    rw [writeTag, List.concat_eq_append, List.flatMap_append, List.flatMap_singleton, hquote,
      ← List.append_assoc, ← List.append_assoc, List.getLast?_concat]
    decide

/-- A written start tag is read to itself. -/
theorem isRead_openTag_writeTag (h : IsWritable name attributes) :
    IsRead (.openTag (writeTag name attributes)) := by
  obtain ⟨htag, hhead⟩ := isTag_of_word h.name (IsTagPart.writeTag h)
  exact isRead_openTag htag hhead (getLast?_writeTag_ne h)

/-- A written tag with a slash at its end is read as an empty one. -/
theorem isRead_emptyTag_writeTag (h : IsWritable name attributes) :
    IsRead (.emptyTag (writeTag name attributes)) := by
  have hpart : IsTagPart (writeTag name attributes ++ ['/']) :=
    (IsTagPart.writeTag h).append (IsTagPart.char (by decide))
  have hsplit : writeTag name attributes ++ ['/']
      = name.toList ++ (attributes.flatMap writeAttribute ++ ['/']) :=
    List.append_assoc ..
  rw [hsplit] at hpart
  obtain ⟨htag, hhead⟩ := isTag_of_word h.name hpart
  rw [← hsplit] at htag hhead
  exact isRead_emptyTag htag hhead

/-- A word behind a slash is read as an end tag. -/
theorem isRead_closeTag_word {cs : List Char} (h : IsWord cs) : IsRead (.closeTag cs) := by
  have hslash : IsTagPart ['/'] := IsTagPart.char (by decide)
  have hpart : IsTagPart ('/' :: cs) := hslash.append (IsTagPart.word h)
  refine isRead_closeTag ⟨hpart.1, hpart.2, fun c hc => ?_⟩
  obtain rfl := Option.some.inj hc
  decide

end Lexeme

end ModInstall.Markup
