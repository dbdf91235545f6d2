import ModInstall.Proofs.Markup.Height

/-! # What documents are read from

    The reader goes lexeme by lexeme, with a stack.  Behind that is a grammar:
    a source is a tree of `Node`s, tags matched, and `Yields` says which
    elements and which text some nodes stand for.  A run over the lexemes of
    nodes adds just that to the innermost open element (`run_of_yields`), and
    the lexemes up to the end tag of an open element are always those of such
    nodes (`exists_content`).  So the documents that load are those that the
    grammar describes and that nest within the limit
    (`Document.parse_eq_ok_iff`). -/

namespace ModInstall.Markup

/-- Whether a lexeme is a tag. -/
def Lexeme.isTag : Lexeme → Bool
  | .openTag _ | .emptyTag _ | .closeTag _ => true
  | .text _ | .literal _ | .ignored _ => false

/-- A piece of content as it is written, elements with all that is in them. -/
inductive Node
  | text (run : List Char)
  | literal (content : List Char)
  | ignored (written : List Char)
  /-- An element with one tag for start and end. -/
  | empty (tag : List Char)
  | element (tag : List Char) (content : List Node) (endTag : List Char)

namespace Node

mutual

/-- The lexemes of a node. -/
def lexemes : Node → List Lexeme
  | .text run => [.text run]
  | .literal content => [.literal content]
  | .ignored written => [.ignored written]
  | .empty tag => [.emptyTag tag]
  | .element tag content endTag => .openTag tag :: (lexemesOf content ++ [.closeTag endTag])

/-- The lexemes of some nodes, one after the other. -/
def lexemesOf : List Node → List Lexeme
  | [] => []
  | n :: ns => n.lexemes ++ lexemesOf ns

end

/-- The text of some nodes in the source. -/
def source (ns : List Node) : List Char :=
  (lexemesOf ns).flatMap Lexeme.source

/-- What is written in a node outside of elements. -/
def ownSource : Node → List Char
  | .text run => run
  | .literal content => (Lexeme.literal content).source
  | .ignored written => written
  | .empty _ | .element .. => []

/-- Whether a node is an element. -/
def isElement : Node → Bool
  | .empty _ | .element .. => true
  | .text _ | .literal _ | .ignored _ => false

/-- The nodes inside of an element. -/
def content : Node → List Node
  | .element _ content _ => content
  | .text _ | .literal _ | .ignored _ | .empty _ => []

/-- Induction on lists of nodes, the contents of elements included. -/
@[elab_as_elim]
theorem inductList {motive : List Node → Prop} (nil : motive [])
    (cons : ∀ n ns, motive n.content → motive ns → motive (n :: ns)) : ∀ ns, motive ns
  | [] => nil
  | .text run :: ns => cons (.text run) ns nil (inductList nil cons ns)
  | .literal content :: ns => cons (.literal content) ns nil (inductList nil cons ns)
  | .ignored written :: ns => cons (.ignored written) ns nil (inductList nil cons ns)
  | .empty tag :: ns => cons (.empty tag) ns nil (inductList nil cons ns)
  | .element tag content endTag :: ns =>
      cons (.element tag content endTag) ns (inductList nil cons content) (inductList nil cons ns)

@[simp] theorem lexemesOf_cons (n : Node) (ns : List Node) :
    lexemesOf (n :: ns) = n.lexemes ++ lexemesOf ns := by
  rw [lexemesOf]

theorem source_cons (n : Node) (ns : List Node) :
    source (n :: ns) = n.lexemes.flatMap Lexeme.source ++ source ns := by
  simp [source]

end Node

/-- The element that a start tag with these attributes begins, given its
    content, the children in it and its text. -/
def Element.ofContent (tag : List Char) (attributes : List (String × String))
    (content : List Node) (children : List Element) (text : List Char) : Element where
  name       := String.ofList (localName (Builder.tagName tag))
  attributes := attributes
  children   := children
  text       := String.ofList text
  innerXml   := if children.isEmpty then some (String.ofList (Node.source content)) else none

/-- An element nests one level deeper than what is in it. -/
theorem Element.nesting_ofContent (tag : List Char) (attributes : List (String × String))
    (content : List Node) (children : List Element) (text : List Char) :
    (ofContent tag attributes content children text).nesting = 1 + nestingList children :=
  nesting_eq _

/-- Some nodes stand for these elements, and for this text between them. -/
inductive Yields : List Node → List Element → List Char → Prop
  | nil : Yields [] [] []
  | text {run t ts : List Char} {ns : List Node} {es : List Element} :
      unescape run = .ok t → Yields ns es ts → Yields (.text run :: ns) es (t ++ ts)
  | literal (content : List Char) {ts : List Char} {ns : List Node} {es : List Element} :
      Yields ns es ts → Yields (.literal content :: ns) es (content ++ ts)
  | ignored (written : List Char) {ts : List Char} {ns : List Node} {es : List Element} :
      Yields ns es ts → Yields (.ignored written :: ns) es ts
  | empty {tag ts : List Char} {attributes : List (String × String)} {ns : List Node}
      {es : List Element} :
      Attribute.read tag = .ok attributes → Yields ns es ts →
        Yields (.empty tag :: ns) (.ofContent tag attributes [] [] [] :: es) ts
  | element {tag endTag t ts : List Char} {attributes : List (String × String)}
      {content ns : List Node} {children es : List Element} :
      Attribute.read tag = .ok attributes → Builder.tagName tag = Builder.endName endTag →
        Yields content children t → Yields ns es ts →
          Yields (.element tag content endTag :: ns)
            (.ofContent tag attributes content children t :: es) ts

/-- A node is an element, and this one. -/
inductive Node.Reads : Node → Element → Prop
  | empty {tag : List Char} {attributes : List (String × String)} :
      Attribute.read tag = .ok attributes →
        Reads (.empty tag) (.ofContent tag attributes [] [] [])
  | element {tag endTag t : List Char} {attributes : List (String × String)}
      {content : List Node} {children : List Element} :
      Attribute.read tag = .ok attributes → Builder.tagName tag = Builder.endName endTag →
        Yields content children t →
          Reads (.element tag content endTag) (.ofContent tag attributes content children t)

/-- Nodes stand for one list of elements and one text. -/
theorem Yields.unique {ns : List Node} {es es' : List Element} {ts ts' : List Char}
    (h : Yields ns es ts) (h' : Yields ns es' ts') : es = es' ∧ ts = ts' := by
  -- the first node tells the case of the second derivation
  induction h generalizing es' ts' with
  | nil =>
      cases h'
      exact ⟨rfl, rfl⟩
  | text ht _ ih =>
      cases h' with
      | text ht' hns =>
          obtain ⟨rfl, rfl⟩ := ih hns
          obtain rfl := Except.ok.inj (ht.symm.trans ht')
          exact ⟨rfl, rfl⟩
  | literal _ _ ih =>
      cases h' with
      | literal _ hns =>
          obtain ⟨rfl, rfl⟩ := ih hns
          exact ⟨rfl, rfl⟩
  | ignored _ _ ih =>
      cases h' with
      | ignored _ hns => exact ih hns
  | empty hread _ ih =>
      cases h' with
      | empty hread' hns =>
          obtain ⟨rfl, rfl⟩ := ih hns
          obtain rfl := Except.ok.inj (hread.symm.trans hread')
          exact ⟨rfl, rfl⟩
  | element hread _ _ _ ihContent ih =>
      cases h' with
      | element hread' _ hcontent hns =>
          obtain ⟨rfl, rfl⟩ := ih hns
          obtain ⟨rfl, rfl⟩ := ihContent hcontent
          obtain rfl := Except.ok.inj (hread.symm.trans hread')
          exact ⟨rfl, rfl⟩

/-- Only elements are read to elements. -/
theorem Node.Reads.isElement {n : Node} {e : Element} (h : n.Reads e) : n.isElement = true := by
  cases h <;> rfl

theorem Yields.cons {n : Node} {e : Element} {ns : List Node} {es : List Element} {ts : List Char}
    (h : n.Reads e) (hns : Yields ns es ts) : Yields (n :: ns) (e :: es) ts := by
  cases h with
  | empty hread => exact .empty hread hns
  | element hread hname hcontent => exact .element hread hname hcontent hns

/-- A node is read to one element at most. -/
theorem Node.Reads.unique {n : Node} {e e' : Element} (h : n.Reads e) (h' : n.Reads e') :
    e = e' :=
  (List.cons.inj ((Yields.cons h .nil).unique (.cons h' .nil)).1).1

/-- Without elements, what is written is the whole source. -/
theorem Yields.source_eq {ns : List Node} {t : List Char} (h : Yields ns [] t) :
    ns.flatMap Node.ownSource = Node.source ns := by
  generalize hes : ([] : List Element) = es at h
  induction h with
  | nil => rfl
  | text _ _ ih | literal _ _ ih | ignored _ _ ih =>
      rw [List.flatMap_cons, ih hes, Node.source_cons]
      simp [Node.ownSource, Node.lexemes, Lexeme.source]
  | empty | element => exact nomatch hes

/-! ## Nodes are run to what they yield -/

namespace OpenElement

/-- An open element after some more of its content. -/
def absorb (o : OpenElement) (ns : List Node) (es : List Element) (t : List Char) : OpenElement :=
  { o with
    children := es.reverse ++ o.children
    text := o.text ++ String.ofList t
    written := o.written ++ String.ofList (ns.flatMap Node.ownSource) }

theorem absorb_nil (o : OpenElement) : o.absorb [] [] [] = o := by
  simp [absorb]

/-- What is no element adds to the text and to what is written. -/
theorem absorb_add {n : Node} {l : Lexeme} (h : n.ownSource = l.source) (o : OpenElement)
    (ns : List Node) (es : List Element) (t ts : List Char) :
    (o.add l t).absorb ns es ts = o.absorb (n :: ns) es (t ++ ts) := by
  simp [absorb, add, h, String.append_assoc]

/-- An element is one more child. -/
theorem absorb_child {n : Node} (h : n.ownSource = []) (o : OpenElement) (e : Element)
    (ns : List Node) (es : List Element) (ts : List Char) :
    { o with children := e :: o.children }.absorb ns es ts
      = o.absorb (n :: ns) (e :: es) ts := by
  simp [absorb, h]

/-- An element that was opened and has had its content closes to what the
    grammar says. -/
theorem close_absorb {tag t : List Char} {attributes : List (String × String)}
    {content : List Node} {children : List Element} (h : Yields content children t) :
    (absorb { fullName := Builder.tagName tag, attributes } content children t).close
      = .ofContent tag attributes content children t := by
  cases children with
  | nil => simp [absorb, close, name, Element.ofContent, h.source_eq]
  | cons e es => simp [absorb, close, name, Element.ofContent]

end OpenElement

namespace Builder

variable {limit : Nat} {b b' : Builder} {o : OpenElement} {os : List OpenElement}
  {root : Option Element}

/-- A start tag opens an element if there is a level left for it and its
    attributes can be read. -/
theorem start_eq_ok_iff {tag : List Char} :
    b.start limit tag = .ok o ↔
      b.stack.length < limit ∧ ∃ attributes, Attribute.read tag = .ok attributes ∧
        o = { fullName := tagName tag, attributes } := by
  rw [start]
  split
  · next h => simp [Nat.not_lt.mpr h]
  · next h =>
      simp only [bind_eq_ok_iff, pure_eq_ok_iff, mapError_eq_ok_iff, Nat.not_le.mp h, true_and,
        eq_comm (a := o)]

/-- The element goes on top of those that are open. -/
theorem step_openTag_eq_ok_iff {tag : List Char} :
    b.step limit (.openTag tag) = .ok b' ↔
      b.stack.length < limit ∧ ∃ attributes, Attribute.read tag = .ok attributes ∧
        b' = ⟨{ fullName := tagName tag, attributes } :: b.stack, b.root⟩ := by
  simp only [step, bind_eq_ok_iff, start_eq_ok_iff, pure_eq_ok_iff]
  constructor
  · rintro ⟨o, ⟨hlt, attributes, hread, rfl⟩, rfl⟩
    exact ⟨hlt, attributes, hread, rfl⟩
  · rintro ⟨hlt, attributes, hread, rfl⟩
    exact ⟨_, ⟨hlt, attributes, hread, rfl⟩, rfl⟩

/-- An empty tag hands its element over at once. -/
theorem step_emptyTag_eq_ok_iff {tag : List Char} :
    b.step limit (.emptyTag tag) = .ok b' ↔
      b.stack.length < limit ∧ ∃ attributes, Attribute.read tag = .ok attributes ∧
        b.attach (.ofContent tag attributes [] [] []) = .ok b' := by
  simp only [step, bind_eq_ok_iff, start_eq_ok_iff]
  constructor
  · rintro ⟨o, ⟨hlt, attributes, hread, rfl⟩, hattach⟩
    exact ⟨hlt, attributes, hread, hattach⟩
  · rintro ⟨hlt, attributes, hread, hattach⟩
    exact ⟨_, ⟨hlt, attributes, hread, rfl⟩, hattach⟩

/-- An end tag hands over the innermost open element, whose name it must
    have. -/
theorem step_closeTag_eq_ok_iff {endTag : List Char} :
    step limit ⟨o :: os, root⟩ (.closeTag endTag) = .ok b' ↔
      o.fullName = endName endTag ∧ attach ⟨os, root⟩ o.close = .ok b' := by
  simp only [step]
  split
  · next h => simp [h]
  · next h => simp [h]

/-- The lexemes of an element hand it over, if those of its content run to
    what they yield. -/
theorem run_element {tag endTag t : List Char} {attributes : List (String × String)}
    {content : List Node} {children : List Element} (hread : Attribute.read tag = .ok attributes)
    (hname : tagName tag = endName endTag) (hcontent : Yields content children t)
    (hlimit : b.stack.length < limit)
    (hrun : (Node.lexemesOf content).foldlM (step limit)
        ⟨{ fullName := tagName tag, attributes } :: b.stack, b.root⟩
      = .ok ⟨OpenElement.absorb { fullName := tagName tag, attributes } content children t ::
          b.stack, b.root⟩)
    (hattach : b.attach (.ofContent tag attributes content children t) = .ok b') :
    (Node.element tag content endTag).lexemes.foldlM (step limit) b = .ok b' := by
  rw [Node.lexemes, List.foldlM_cons, bind_eq_ok_iff]
  refine ⟨_, step_openTag_eq_ok_iff.mpr ⟨hlimit, attributes, hread, rfl⟩, ?_⟩
  rw [List.foldlM_append, bind_eq_ok_iff]
  refine ⟨_, hrun, ?_⟩
  rw [List.foldlM_cons, bind_eq_ok_iff]
  refine ⟨b', step_closeTag_eq_ok_iff.mpr ⟨hname, ?_⟩, rfl⟩
  rw [OpenElement.close_absorb hcontent]
  exact hattach

/-- The lexemes of an element without content hand it over. -/
theorem run_empty {tag : List Char} {attributes : List (String × String)}
    (hread : Attribute.read tag = .ok attributes) (hlimit : b.stack.length < limit)
    (hattach : b.attach (.ofContent tag attributes [] [] []) = .ok b') :
    (Node.empty tag).lexemes.foldlM (step limit) b = .ok b' := by
  rw [Node.lexemes, List.foldlM_cons, bind_eq_ok_iff]
  exact ⟨b', step_emptyTag_eq_ok_iff.mpr ⟨hlimit, attributes, hread, hattach⟩, rfl⟩

/-- Nodes add to the innermost open element what they yield, if that does not
    nest too deep there. -/
theorem run_of_yields {ns : List Node} {es : List Element} {t : List Char} (h : Yields ns es t)
    (hlimit : os.length + 1 + Element.nestingList es ≤ limit) :
    (Node.lexemesOf ns).foldlM (step limit) ⟨o :: os, root⟩
      = .ok ⟨o.absorb ns es t :: os, root⟩ := by
  induction h generalizing o os with
  | nil => rw [o.absorb_nil]; rfl
  | text hrun _ ih =>
      rw [← OpenElement.absorb_add (l := .text _) rfl, ← ih hlimit]
      simp [Node.lexemes, step, hrun, Except.mapError, bind, Except.bind, pure, Except.pure]
  | literal _ _ ih =>
      rw [← OpenElement.absorb_add (l := .literal _) rfl, ← ih hlimit]
      rfl
  | @ignored _ ts _ _ _ ih =>
      rw [← List.nil_append ts, ← OpenElement.absorb_add (l := .ignored _) rfl, ← ih hlimit]
      rfl
  | empty hread _ ih =>
      rw [Element.nestingList, Element.nesting_ofContent] at hlimit
      have hlt : os.length + 1 < limit := by omega
      rw [← OpenElement.absorb_child rfl, ← ih (by omega), Node.lexemesOf_cons,
        List.foldlM_append, run_empty hread hlt rfl]
      rfl
  | @element _ _ _ _ _ _ _ children _ hread hname hcontent _ ihContent ih =>
      rw [Element.nestingList, Element.nesting_ofContent] at hlimit
      have hlt : os.length + 1 < limit := by omega
      have hinner : (o :: os).length + 1 + Element.nestingList children ≤ limit := by
        rw [List.length_cons]
        omega
      -- the content is run through one level up, and the siblings behind it on this one
      rw [← OpenElement.absorb_child rfl, ← ih (by omega), Node.lexemesOf_cons,
        List.foldlM_append, run_element hread hname hcontent hlt (ihContent hinner) rfl]
      rfl

theorem run_singleton (l : Lexeme) : [l].foldlM (step limit) b = b.step limit l :=
  bind_pure _

/-- An element that was run through was handed over, if its content has
    yielded what was added in it. -/
theorem reads_of_run {n : Node} (hn : n.isElement = true)
    (hcontent : ∀ {o os b'},
      (Node.lexemesOf n.content).foldlM (step limit) ⟨o :: os, b.root⟩ = .ok b' →
        ∃ es t, Yields n.content es t ∧ b' = ⟨o.absorb n.content es t :: os, b.root⟩)
    (h : n.lexemes.foldlM (step limit) b = .ok b') : ∃ e, n.Reads e ∧ b.attach e = .ok b' := by
  cases n with
  | text | literal | ignored => exact nomatch hn
  | empty tag =>
      rw [Node.lexemes, run_singleton] at h
      obtain ⟨-, attributes, hread, hattach⟩ := step_emptyTag_eq_ok_iff.mp h
      exact ⟨_, .empty hread, hattach⟩
  | element tag content endTag =>
      -- the element is opened, filled and closed
      rw [Node.lexemes, List.foldlM_cons] at h
      obtain ⟨b₁, hopen, hrun⟩ := bind_eq_ok_iff.mp h
      obtain ⟨-, attributes, hread, rfl⟩ := step_openTag_eq_ok_iff.mp hopen
      rw [List.foldlM_append] at hrun
      obtain ⟨b₂, hinner, hclose⟩ := bind_eq_ok_iff.mp hrun
      obtain ⟨children, t, hy, rfl⟩ := hcontent hinner
      rw [run_singleton] at hclose
      obtain ⟨hname, hattach⟩ := step_closeTag_eq_ok_iff.mp hclose
      rw [Node.content] at hy hattach
      rw [OpenElement.close_absorb hy] at hattach
      exact ⟨_, .element hread hname hy, hattach⟩

/-- Nodes that were run through have yielded what was added. -/
theorem yields_of_run {ns : List Node}
    (h : (Node.lexemesOf ns).foldlM (step limit) ⟨o :: os, root⟩ = .ok b') :
    ∃ es t, Yields ns es t ∧ b' = ⟨o.absorb ns es t :: os, root⟩ := by
  -- the induction enters elements, so it is known what their content yields
  induction ns using Node.inductList generalizing o os b' with
  | nil =>
      obtain rfl := pure_eq_ok_iff.mp h
      exact ⟨[], [], .nil, by rw [o.absorb_nil]⟩
  | cons n ns ihContent ih =>
      rw [Node.lexemesOf_cons, List.foldlM_append] at h
      obtain ⟨b₁, hn, hrun⟩ := bind_eq_ok_iff.mp h
      cases n with
      | text run =>
          rw [Node.lexemes, run_singleton] at hn
          obtain ⟨t, ht, hb⟩ := bind_eq_ok_iff.mp hn
          obtain rfl := pure_eq_ok_iff.mp hb
          obtain ⟨es, ts, hy, rfl⟩ := ih hrun
          rw [OpenElement.absorb_add (n := .text run) rfl]
          exact ⟨es, t ++ ts, .text (mapError_eq_ok_iff.mp ht) hy, rfl⟩
      | literal content =>
          rw [Node.lexemes, run_singleton] at hn
          obtain rfl := Except.ok.inj hn
          obtain ⟨es, ts, hy, rfl⟩ := ih hrun
          rw [OpenElement.absorb_add (n := .literal content) rfl]
          exact ⟨es, content ++ ts, .literal content hy, rfl⟩
      | ignored written =>
          rw [Node.lexemes, run_singleton] at hn
          obtain rfl := Except.ok.inj hn
          obtain ⟨es, ts, hy, rfl⟩ := ih hrun
          rw [OpenElement.absorb_add (n := .ignored written) rfl]
          exact ⟨es, ts, .ignored written hy, rfl⟩
      | empty | element =>
          obtain ⟨e, hreads, hattach⟩ := reads_of_run rfl ihContent hn
          obtain rfl := Except.ok.inj hattach
          obtain ⟨es, ts, hy, rfl⟩ := ih hrun
          exact ⟨e :: es, ts, .cons hreads hy, by rw [← OpenElement.absorb_child rfl]⟩

/-! ## Every run is one of nodes -/

theorem attach_length {e : Element} (h : b.attach e = .ok b') :
    b'.stack.length = b.stack.length := by
  obtain ⟨stack, root⟩ := b
  cases stack with
  | cons o os => obtain rfl := Except.ok.inj h; rfl
  | nil =>
      cases root with
      | none => obtain rfl := Except.ok.inj h; rfl
      | some e => exact nomatch h

/-- What is no tag opens and closes nothing. -/
theorem step_length {l : Lexeme} (hl : l.isTag = false) (h : b.step limit l = .ok b') :
    b'.stack.length = b.stack.length := by
  obtain ⟨stack, root⟩ := b
  cases l with
  | openTag | emptyTag | closeTag => exact nomatch hl
  | literal | ignored => cases stack <;> obtain rfl := Except.ok.inj h <;> rfl
  | text run =>
      cases stack with
      | nil => obtain rfl := Except.ok.inj h; rfl
      | cons o os =>
          obtain ⟨t, -, hb⟩ := bind_eq_ok_iff.mp h
          obtain rfl := pure_eq_ok_iff.mp hb
          rfl

/-- An element that was run through leaves as many elements open as before. -/
theorem run_length {n : Node} (hn : n.isElement = true)
    (h : n.lexemes.foldlM (step limit) b = .ok b') : b'.stack.length = b.stack.length := by
  obtain ⟨e, -, hattach⟩ := reads_of_run hn yields_of_run h
  exact attach_length hattach

/-- If an element that is open is closed in the end, its content comes first
    and then its end tag. -/
theorem exists_content {ls : List Lexeme} (h : ls.foldlM (step limit) b = .ok b')
    (hclosed : b'.stack.length < b.stack.length) :
    ∃ content endTag rest, ls = Node.lexemesOf content ++ .closeTag endTag :: rest := by
  induction hlen : ls.length using Nat.strongRecOn generalizing ls b with
  | ind k ih =>
      cases ls with
      | nil =>
          obtain rfl := pure_eq_ok_iff.mp h
          exact absurd hclosed (Nat.lt_irrefl _)
      | cons l ls =>
          -- a node at the front is followed by the rest of the content
          have hfront : ∀ {n : Node} {ls' : List Lexeme} {b₁ : Builder},
              l :: ls = n.lexemes ++ ls' → ls'.length < k →
              n.lexemes.foldlM (step limit) b = .ok b₁ → b₁.stack.length = b.stack.length →
              ∃ content endTag rest,
                l :: ls = Node.lexemesOf content ++ .closeTag endTag :: rest := by
            intro n ls' b₁ hls hlt hn hlength
            rw [hls, List.foldlM_append, hn] at h
            rw [← hlength] at hclosed
            obtain ⟨content, endTag, rest, rfl⟩ := ih _ hlt h hclosed rfl
            exact ⟨n :: content, endTag, rest, by simp [hls]⟩
          have hlt : ls.length < k := hlen ▸ Nat.lt_succ_self _
          rw [List.foldlM_cons] at h
          obtain ⟨b₁, hstep, hrun⟩ := bind_eq_ok_iff.mp h
          have hone : [l].foldlM (step limit) b = .ok b₁ := (run_singleton l).trans hstep
          cases l with
          | text run => exact hfront (n := .text run) rfl hlt hone (step_length rfl hstep)
          | literal run => exact hfront (n := .literal run) rfl hlt hone (step_length rfl hstep)
          | ignored run => exact hfront (n := .ignored run) rfl hlt hone (step_length rfl hstep)
          | emptyTag tag =>
              exact hfront (n := .empty tag) rfl hlt hone (run_length (n := .empty tag) rfl hone)
          | closeTag endTag => exact ⟨[], endTag, ls, rfl⟩
          | openTag tag =>
              obtain ⟨-, attributes, hread, rfl⟩ := step_openTag_eq_ok_iff.mp hstep
              obtain ⟨content, endTag, rest, rfl⟩ :=
                ih _ hlt hrun (Nat.lt_succ_of_lt hclosed) rfl
              have hsplit :
                  Lexeme.openTag tag :: (Node.lexemesOf content ++ .closeTag endTag :: rest)
                    = (Node.element tag content endTag).lexemes ++ rest := by
                simp [Node.lexemes]
              rw [← List.foldlM_cons, hsplit, List.foldlM_append] at h
              obtain ⟨b₂, hn, -⟩ := bind_eq_ok_iff.mp h
              refine hfront hsplit ?_ hn (run_length rfl hn)
              simp only [List.length_append, List.length_cons] at hlt
              omega

/-- The tag of an element at the front, and the element itself, if nothing is
    open in the end that was not open before. -/
theorem exists_element {l : Lexeme} {ls : List Lexeme}
    (h : (l :: ls).foldlM (step limit) b = .ok b') (hl : l.isTag = true)
    (hb : b.stack = []) (hb' : b'.stack = []) :
    ∃ (n : Node) (rest : List Lexeme), n.isElement = true ∧ l :: ls = n.lexemes ++ rest := by
  cases l with
  | text | literal | ignored => exact nomatch hl
  | emptyTag tag => exact ⟨.empty tag, ls, rfl, rfl⟩
  | openTag tag =>
      rw [List.foldlM_cons] at h
      obtain ⟨b₁, hstep, hrun⟩ := bind_eq_ok_iff.mp h
      obtain ⟨-, attributes, -, rfl⟩ := step_openTag_eq_ok_iff.mp hstep
      obtain ⟨content, endTag, rest, rfl⟩ :=
        exists_content hrun (by rw [hb']; exact Nat.succ_pos _)
      exact ⟨.element tag content endTag, rest, rfl, by simp [Node.lexemes]⟩
  | closeTag endTag =>
      rw [List.foldlM_cons, step, hb] at h
      cases h

end Builder

/-! ## Sources -/

/-- A source is that of an element if nothing outside of the element is a
    tag. -/
def Node.IsRootOf (root : Node) (source : List Char) : Prop :=
  root.isElement = true ∧ ∃ before behind,
    Markup.lexemes source = (before ++ root.lexemes ++ behind, none) ∧
      ∀ l ∈ before ++ behind, l.isTag = false

namespace Builder

variable {limit : Nat} {ls : List Lexeme} {e e' : Element}

/-- Where nothing is open, what is no tag is passed over. -/
theorem step_outside {l : Lexeme} (h : l.isTag = false) {root : Option Element} :
    step limit ⟨[], root⟩ l = .ok ⟨[], root⟩ := by
  cases l with
  | text | literal | ignored => rfl
  | openTag | emptyTag | closeTag => exact nomatch h

/-- Outside of the root nothing but tags counts. -/
theorem run_outside (h : ∀ l ∈ ls, l.isTag = false) (root : Option Element) :
    ls.foldlM (step limit) ⟨[], root⟩ = .ok ⟨[], root⟩ := by
  induction ls with
  | nil => rfl
  | cons l ls ih =>
      obtain ⟨hl, hls⟩ := List.forall_mem_cons.mp h
      rw [List.foldlM_cons, step_outside hl]
      exact ih hls

/-- Behind the root there are no more tags. -/
theorem isTag_of_run (h : ls.foldlM (step limit) ⟨[], some e'⟩ = .ok ⟨[], some e⟩) :
    e' = e ∧ ∀ l ∈ ls, l.isTag = false := by
  induction ls with
  | nil =>
      cases pure_eq_ok_iff.mp h
      exact ⟨rfl, fun _ hl => nomatch hl⟩
  | cons l ls ih =>
      cases hl : l.isTag with
      | true =>
          -- another element would be a second root
          obtain ⟨n, rest, hn, hsplit⟩ := exists_element h hl rfl rfl
          rw [hsplit, List.foldlM_append] at h
          obtain ⟨b, hrun, -⟩ := bind_eq_ok_iff.mp h
          obtain ⟨_, _, hattach⟩ := reads_of_run hn yields_of_run hrun
          exact nomatch hattach
      | false =>
          rw [List.foldlM_cons, step_outside hl] at h
          obtain ⟨he, hls⟩ := ih h
          exact ⟨he, List.forall_mem_cons.mpr ⟨hl, hls⟩⟩

/-- The first tag begins the root. -/
theorem exists_root (h : ls.foldlM (step limit) {} = .ok ⟨[], some e⟩) :
    ∃ (before : List Lexeme) (root : Node) (behind : List Lexeme),
      ls = before ++ root.lexemes ++ behind ∧ (∀ l ∈ before ++ behind, l.isTag = false) ∧
        root.Reads e := by
  induction ls with
  | nil => exact nomatch pure_eq_ok_iff.mp h
  | cons l ls ih =>
      cases hl : l.isTag with
      | true =>
          obtain ⟨n, rest, hn, hsplit⟩ := exists_element h hl rfl rfl
          rw [hsplit, List.foldlM_append] at h
          obtain ⟨b, hrun, hrest⟩ := bind_eq_ok_iff.mp h
          obtain ⟨e', hreads, hattach⟩ := reads_of_run hn yields_of_run hrun
          obtain rfl := Except.ok.inj hattach
          obtain ⟨rfl, houtside⟩ := isTag_of_run hrest
          exact ⟨[], n, rest, hsplit, houtside, hreads⟩
      | false =>
          rw [List.foldlM_cons, step_outside hl] at h
          obtain ⟨before, root, behind, rfl, houtside, hroot⟩ := ih h
          exact ⟨l :: before, root, behind, rfl, List.forall_mem_cons.mpr ⟨hl, houtside⟩, hroot⟩

/-- The lexemes of a root make it the root. -/
theorem run_root {root : Node} (h : root.Reads e) (hlimit : e.nesting ≤ limit) :
    root.lexemes.foldlM (step limit) {} = .ok ⟨[], some e⟩ := by
  cases h with
  | empty hread =>
      rw [Element.nesting_ofContent] at hlimit
      exact run_empty hread (Nat.lt_of_lt_of_le (Nat.lt_add_right _ Nat.one_pos) hlimit) rfl
  | element hread hname hcontent =>
      rw [Element.nesting_ofContent] at hlimit
      have hlt : 0 < limit := Nat.lt_of_lt_of_le (Nat.lt_add_right _ Nat.one_pos) hlimit
      refine run_element hread hname hcontent hlt (run_of_yields hcontent ?_) rfl
      simpa using hlimit

/-- A document is finished when its root is and nothing is open. -/
theorem finish_eq_ok_iff {b : Builder} {d : Document} :
    b.finish = .ok d ↔ b = ⟨[], some d.root⟩ := by
  obtain ⟨e⟩ := d
  obtain ⟨stack, root⟩ := b
  cases stack <;> cases root <;> simp [finish]

end Builder

/-- **What loads**: a source loads as a document exactly when it is that of a
    root that reads to the root of the document, and this does not nest too
    deep. -/
theorem Document.parse_eq_ok_iff {limit : Nat} {source : String} {d : Document} :
    parse limit source = .ok d ↔
      (∃ root : Node, root.IsRootOf (withoutMarks source.toList) ∧ root.Reads d.root) ∧
        d.root.nesting ≤ limit := by
  constructor
  · intro h
    refine ⟨?_, nesting_le_of_parse h⟩
    obtain ⟨ls, b, hlexemes, hrun, hfinish⟩ := parse_eq_ok_iff_run.mp h
    obtain rfl := Builder.finish_eq_ok_iff.mp hfinish
    obtain ⟨before, root, behind, rfl, houtside, hroot⟩ := Builder.exists_root hrun
    exact ⟨root, ⟨hroot.isElement, before, behind, hlexemes, houtside⟩, hroot⟩
  · rintro ⟨⟨root, ⟨-, before, behind, hls, houtside⟩, hroot⟩, hlimit⟩
    obtain ⟨hbefore, hbehind⟩ := List.forall_mem_append.mp houtside
    refine parse_eq_ok_iff_run.mpr ⟨_, _, hls, ?_, Builder.finish_eq_ok_iff.mpr rfl⟩
    simp only [List.foldlM_append, bind_eq_ok_iff]
    exact ⟨_, ⟨_, Builder.run_outside hbefore none, Builder.run_root hroot hlimit⟩,
      Builder.run_outside hbehind _⟩

/-- The element that a source is the source of reads to the root of its
    document. -/
theorem Document.reads_of_parse {limit : Nat} {source : String} {d : Document} {root : Node}
    (h : parse limit source = .ok d) (hroot : root.IsRootOf (withoutMarks source.toList)) :
    root.Reads d.root := by
  obtain ⟨hn, before, behind, hls, houtside⟩ := hroot
  obtain ⟨hbefore, hbehind⟩ := List.forall_mem_append.mp houtside
  rw [parse, build, hls] at h
  obtain ⟨b, hrun, hfinish⟩ := bind_eq_ok_iff.mp h
  obtain rfl := Builder.finish_eq_ok_iff.mp hfinish
  simp only [List.foldlM_append, bind_eq_ok_iff] at hrun
  obtain ⟨b₂, ⟨b₁, hfront, hinner⟩, hrest⟩ := hrun
  obtain rfl := Except.ok.inj ((Builder.run_outside hbefore none).symm.trans hfront)
  obtain ⟨e, hreads, hattach⟩ := Builder.reads_of_run hn Builder.yields_of_run hinner
  obtain rfl := Except.ok.inj hattach
  rw [Builder.run_outside hbehind] at hrest
  cases Except.ok.inj hrest
  exact hreads

end ModInstall.Markup
