import ModInstall.Proofs.Markup.Syntax
import ModInstall.Proofs.Markup.Tag
import ModInstall.Text.Blank

/-! # Writing documents

    An `Item` is a piece of content before it is written: text as it is meant,
    literal sections, comments, instructions, and elements with any content.
    What is written is read to nodes (`lexemes_writeAll`), which are one for
    each item except that texts side by side become one, and these yield the
    elements and the text of the items (`yields_nodesOf`).  So a written
    document loads, as what was written (`Document.parse_write`). -/

namespace ModInstall.Markup

/-- A piece of content that is to be written. -/
inductive Item
  | text (s : String)
  | literal (s : String)
  | comment (s : String)
  | instruction (s : String)
  /-- An element; `short` asks for a single tag where there is no content. -/
  | element (name : String) (attributes : List (String × String)) (content : List Item)
      (short : Bool)

namespace Item

mutual

/-- An item as it is written. -/
def write : Item → List Char
  | .text s => escape s.toList
  | .literal s => '<' :: '!' :: '[' :: 'C' :: 'D' :: 'A' :: 'T' :: 'A' :: '[' ::
      (s.toList ++ [']', ']', '>'])
  | .comment s => '<' :: '!' :: '-' :: '-' :: (s.toList ++ ['-', '-', '>'])
  | .instruction s => '<' :: '?' :: (s.toList ++ ['?', '>'])
  | .element name attributes content short =>
      if content.isEmpty && short then '<' :: (writeTag name attributes ++ ['/', '>'])
      else '<' :: (writeTag name attributes ++ '>' :: (writeAll content ++
        '<' :: '/' :: (name.toList ++ ['>'])))

/-- Items as they are written, one after the other. -/
def writeAll : List Item → List Char
  | [] => []
  | i :: is => i.write ++ writeAll is

end

/-- The text that an item adds to the element that it stands in. -/
def ownText : Item → List Char
  | .text s | .literal s => s.toList
  | .comment _ | .instruction _ | .element .. => []

/-- The element with some content, given the children in it. -/
def elementWith (name : String) (attributes : List (String × String)) (content : List Item)
    (children : List Element) : Element where
  name       := name
  attributes := attributes
  children   := children
  text       := String.ofList (content.flatMap ownText)
  innerXml   := if children.isEmpty then some (String.ofList (writeAll content)) else none

mutual

/-- The element that an item is, if it is one. -/
def elements : Item → List Element
  | .element name attributes content _ =>
      [elementWith name attributes content (elementsOf content)]
  | .text _ | .literal _ | .comment _ | .instruction _ => []

/-- The elements among some items, in order. -/
def elementsOf : List Item → List Element
  | [] => []
  | i :: is => i.elements ++ elementsOf is

end

/-- An item that may stand outside of the root: white space, a comment or an
    instruction. -/
def IsOutside : Item → Prop
  | .text s => ∀ c ∈ s.toList, Text.isBlank c = true
  | .comment s | .instruction s => '>' ∉ s.toList
  | .literal _ | .element .. => False

instance : DecidablePred IsOutside
  | .text s => List.decidableBAll (Text.isBlank · = true) s.toList
  | .comment s | .instruction s => inferInstanceAs (Decidable ('>' ∉ s.toList))
  | .literal _ | .element .. => inferInstanceAs (Decidable False)

end Item

/-- Items that can be read back: no literal section, comment or instruction
    holds what would end it, and every element has a name and attributes that
    come back. -/
inductive Writable : List Item → Prop
  | nil : Writable []
  | text (s : String) {is : List Item} : Writable is → Writable (.text s :: is)
  | literal {s : String} {is : List Item} :
      ¬[']', ']', '>'] <:+: s.toList → Writable is → Writable (.literal s :: is)
  | comment {s : String} {is : List Item} :
      '>' ∉ s.toList → Writable is → Writable (.comment s :: is)
  | instruction {s : String} {is : List Item} :
      '>' ∉ s.toList → Writable is → Writable (.instruction s :: is)
  | element {name : String} {attributes : List (String × String)} {content is : List Item}
      (short : Bool) :
      IsWritable name attributes → Writable content → Writable is →
        Writable (.element name attributes content short :: is)

/-- The source of a document: byte order marks, and a root with what stands
    before and behind it. -/
def writeDocument (marks : Nat) (before : List Item) (root : Item) (behind : List Item) : String :=
  String.ofList (List.replicate marks '\uFEFF' ++ Item.writeAll before ++ root.write ++
    Item.writeAll behind)

/-! ## The nodes of items -/

/-- Puts a run of text in front of some nodes; if they begin with text, it is
    one run with that. -/
def Node.consText (run : List Char) : List Node → List Node
  | .text run' :: ns => .text (run ++ run') :: ns
  | ns => if run = [] then ns else .text run :: ns

namespace Item

mutual

/-- Puts the node of an item in front of some nodes. -/
def addTo : Item → List Node → List Node
  | .text s, ns => Node.consText (escape s.toList) ns
  | .literal s, ns => .literal s.toList :: ns
  | .comment s, ns => .ignored ('<' :: '!' :: '-' :: '-' :: (s.toList ++ ['-', '-', '>'])) :: ns
  | .instruction s, ns => .ignored ('<' :: '?' :: (s.toList ++ ['?', '>'])) :: ns
  | .element name attributes content short, ns =>
      (if content.isEmpty && short then .empty (writeTag name attributes)
        else .element (writeTag name attributes) (nodesOf content) name.toList) :: ns

/-- The nodes that items are read to. -/
def nodesOf : List Item → List Node
  | [] => []
  | i :: is => i.addTo (nodesOf is)

end

end Item

open Item

/-- Text is put in front of nodes as it is in front of their lexemes. -/
theorem consText_lexemesOf {run : List Char} {ns : List Node} {ls : List Lexeme}
    (h : ∀ run' ls', ls ≠ .text run' :: ls') :
    consText run (Node.lexemesOf ns ++ ls) = Node.lexemesOf (Node.consText run ns) ++ ls := by
  by_cases hrun : run = []
  · subst hrun
    rw [consText_nil]
    cases ns with
    | nil => rfl
    | cons n ns => cases n <;> rfl
  · cases ns with
    | nil =>
        rw [Node.consText, if_neg hrun]
        · exact consText_of_ne_text hrun h
        · exact nofun
    | cons n ns => cases n <;> simp [Node.consText, consText, hrun, Node.lexemes]

/-- The lexemes of an element, if those of its content are as they should be
    in front of its end tag. -/
theorem lexemes_element {tag endTag cs : List Char} {ns : List Node}
    (hopen : Lexeme.IsRead (.openTag tag)) (hclose : Lexeme.IsRead (.closeTag endTag))
    (hcontent : ∀ {rest : List Char}, (∀ run ls, (lexemes rest).1 ≠ .text run :: ls) →
      lexemes (cs ++ rest) = (Node.lexemesOf ns ++ (lexemes rest).1, (lexemes rest).2))
    (rest : List Char) :
    lexemes ('<' :: (tag ++ '>' :: (cs ++ '<' :: '/' :: (endTag ++ ['>']))) ++ rest)
      = ((Node.element tag ns endTag).lexemes ++ (lexemes rest).1, (lexemes rest).2) := by
  have hsplit : '<' :: (tag ++ '>' :: (cs ++ '<' :: '/' :: (endTag ++ ['>']))) ++ rest
      = (Lexeme.openTag tag).source ++ (cs ++ ((Lexeme.closeTag endTag).source ++ rest)) := by
    simp [Lexeme.source]
  have hnext : ∀ run ls, (lexemes ((Lexeme.closeTag endTag).source ++ rest)).1 ≠ .text run :: ls :=
    fun _ _ => lexemes_markup_ne_text
  rw [hsplit, lexemes_of_isRead hopen, hcontent hnext, lexemes_of_isRead hclose]
  simp [Node.lexemes]

/-- Written items are read to their nodes, and what follows is read on its own
    if it does not begin with text. -/
theorem lexemes_writeAll {is : List Item} (h : Writable is) {rest : List Char}
    (hrest : ∀ run ls, (lexemes rest).1 ≠ .text run :: ls) :
    lexemes (writeAll is ++ rest)
      = (Node.lexemesOf (nodesOf is) ++ (lexemes rest).1, (lexemes rest).2) := by
  induction h generalizing rest with
  | nil => rfl
  | text s _ ih =>
      -- the run joins the text that comes behind it, among nodes as among lexemes
      have hmarkup : '<' ∉ escape s.toList := not_mem_escape (by decide) _
      rw [writeAll, List.append_assoc, write, lexemes_text_append hmarkup, ih hrest, nodesOf, addTo,
        consText_lexemesOf hrest]
  | literal hs _ ih =>
      have hread := Lexeme.isRead_literal hs
      rw [writeAll, List.append_assoc]
      exact (lexemes_of_isRead hread _).trans (by rw [ih hrest]; rfl)
  | comment hs _ ih =>
      have hread := Lexeme.isRead_comment hs
      rw [writeAll, List.append_assoc]
      exact (lexemes_of_isRead hread _).trans (by rw [ih hrest]; rfl)
  | instruction hs _ ih =>
      have hread := Lexeme.isRead_instruction hs
      rw [writeAll, List.append_assoc]
      exact (lexemes_of_isRead hread _).trans (by rw [ih hrest]; rfl)
  | @element name attributes content is short hname _ _ ihContent ih =>
      rw [writeAll, List.append_assoc, write, nodesOf, addTo]
      split
      -- the short form has no content to go through
      · have hread := Lexeme.isRead_emptyTag_writeTag hname
        exact (lexemes_of_isRead hread _).trans (by rw [ih hrest]; rfl)
      · rw [lexemes_element (Lexeme.isRead_openTag_writeTag hname)
          (Lexeme.isRead_closeTag_word hname.name) ihContent, ih hrest, Node.lexemesOf_cons,
          List.append_assoc]

/-! ## What the nodes yield -/

theorem source_consText (run : List Char) (ns : List Node) :
    Node.source (Node.consText run ns) = run ++ Node.source ns := by
  have hrun : Node.source (if run = [] then ns else .text run :: ns) = run ++ Node.source ns := by
    split
    · next h => rw [h, List.nil_append]
    · simp [Node.source_cons, Node.lexemes, Lexeme.source]
  cases ns with
  | nil => exact hrun
  | cons n ns =>
      cases n with
      | text run' => simp [Node.consText, Node.source_cons, Node.lexemes, Lexeme.source]
      | literal | ignored | empty | element => exact hrun

/-- The nodes of items have the source that was written. -/
theorem source_nodesOf {is : List Item} (h : Writable is) :
    Node.source (nodesOf is) = writeAll is := by
  induction h with
  | nil => rfl
  | text s _ ih => rw [nodesOf, addTo, source_consText, ih, writeAll, write]
  | literal _ _ ih | comment _ _ ih | instruction _ _ ih =>
      rw [nodesOf, addTo, Node.source_cons, ih, writeAll, write]
      simp [Node.lexemes, Lexeme.source, Lexeme.literalOpening]
  | element short _ _ _ ihContent ih =>
      rw [nodesOf, addTo, Node.source_cons, ih, writeAll, write]
      split
      · simp [Node.lexemes, Lexeme.source]
      · rw [← ihContent]
        simp [Node.lexemes, Lexeme.source, Node.source]

/-- Escaped text in front yields the text that was escaped. -/
theorem Yields.consText {ts : List Char} {ns : List Node} {es : List Element}
    (h : Yields ns es ts) (cs : List Char) :
    Yields (Node.consText (escape cs) ns) es (cs ++ ts) := by
  have hrun : Yields (if escape cs = [] then ns else .text (escape cs) :: ns) es (cs ++ ts) := by
    split
    · next hnil =>
        rw [escape_eq_nil_iff.mp hnil]
        exact h
    · exact .text (unescape_escape cs) h
  cases h with
  | text ht hns =>
      rw [← List.append_assoc]
      exact .text (unescape_escape_append ht cs) hns
  | nil | literal | ignored | empty | element => exact hrun

/-- What is read from a written tag is the element that was written. -/
theorem ofContent_writeTag {name : String} {attributes : List (String × String)}
    {content : List Item} (h : IsWritable name attributes) (hcontent : Writable content)
    (children : List Element) :
    Element.ofContent (writeTag name attributes) attributes (nodesOf content) children
        (content.flatMap ownText)
      = elementWith name attributes content children := by
  rw [Element.ofContent, tagName_writeTag h, h.name.localName_eq, String.ofList_toList,
    source_nodesOf hcontent, elementWith]

/-- The node of an element is the element, if its content is. -/
theorem exists_reads {name : String} {attributes : List (String × String)} {content : List Item}
    (h : IsWritable name attributes) (hcontent : Writable content)
    (hy : Yields (nodesOf content) (elementsOf content) (content.flatMap ownText)) (short : Bool) :
    ∃ n : Node, (∀ ns, (Item.element name attributes content short).addTo ns = n :: ns) ∧
      n.Reads (elementWith name attributes content (elementsOf content)) := by
  have hread := Attribute.read_writeTag h
  rw [← ofContent_writeTag h hcontent]
  cases hempty : content.isEmpty && short with
  | true =>
      obtain rfl := List.isEmpty_iff.mp (Bool.and_eq_true_iff.mp hempty).1
      exact ⟨_, fun _ => by rw [addTo, if_pos hempty], .empty hread⟩
  | false =>
      refine ⟨_, fun _ => by rw [addTo, hempty]; rfl, .element hread ?_ hy⟩
      rw [tagName_writeTag h, h.name.endName_eq]

/-- The nodes of items stand for the elements and the text of the items. -/
theorem yields_nodesOf {is : List Item} (h : Writable is) :
    Yields (nodesOf is) (elementsOf is) (is.flatMap ownText) := by
  induction h with
  | nil => exact .nil
  | text s _ ih => exact ih.consText s.toList
  | literal _ _ ih => exact .literal _ ih
  | comment _ _ ih | instruction _ _ ih => exact .ignored _ ih
  | element short hname hcontent _ ihContent ih =>
      obtain ⟨n, hn, hreads⟩ := exists_reads hname hcontent ihContent short
      rw [nodesOf, hn]
      exact .cons hreads ih

/-- An element alone is read to one node. -/
theorem exists_nodesOf {name : String} {attributes : List (String × String)} {content : List Item}
    {short : Bool} (h : Writable [.element name attributes content short]) :
    ∃ n : Node, nodesOf [.element name attributes content short] = [n] ∧
      n.Reads (elementWith name attributes content (elementsOf content)) := by
  cases h with
  | element _ hname hcontent _ =>
      obtain ⟨n, hn, hreads⟩ := exists_reads hname hcontent (yields_nodesOf hcontent) short
      exact ⟨n, hn [], hreads⟩

/-- An element does not mix with what comes behind it. -/
theorem nodesOf_element_cons {name : String} {attributes : List (String × String)}
    {content : List Item} {short : Bool} {n : Node}
    (hn : nodesOf [.element name attributes content short] = [n]) (is : List Item) :
    nodesOf (.element name attributes content short :: is) = n :: nodesOf is := by
  rw [nodesOf, addTo] at hn ⊢
  rw [(List.cons.inj hn).1]

/-- Items without a `<` in what is written have no elements among them. -/
theorem elementsOf_eq_nil {is : List Item} (h : '<' ∉ writeAll is) : elementsOf is = [] := by
  induction is with
  | nil => rfl
  | cons i is ih =>
      rw [writeAll, List.mem_append, not_or] at h
      rw [elementsOf, ih h.2, List.append_nil]
      cases i with
      | text | literal | comment | instruction => rfl
      | element name attributes content short =>
          refine absurd ?_ h.1
          rw [write]
          split <;> exact List.mem_cons_self ..

/-! ## Documents -/

theorem isTag_consText {run : List Char} {ns : List Node}
    (h : ∀ l ∈ Node.lexemesOf ns, l.isTag = false) :
    ∀ l ∈ Node.lexemesOf (Node.consText run ns), l.isTag = false := by
  have hrun : ∀ l ∈ Node.lexemesOf (if run = [] then ns else .text run :: ns), l.isTag = false := by
    split
    · exact h
    · exact List.forall_mem_cons.mpr ⟨rfl, h⟩
  cases ns with
  | nil => exact hrun
  | cons n ns =>
      cases n with
      | text run' => exact List.forall_mem_cons.mpr ⟨rfl, (List.forall_mem_cons.mp h).2⟩
      | literal | ignored | empty | element => exact hrun

namespace Item

variable {is : List Item}

/-- What may stand outside of the root can be read back. -/
theorem writable_of_isOutside (h : ∀ i ∈ is, i.IsOutside) : Writable is := by
  induction is with
  | nil => exact .nil
  | cons i is ih =>
      obtain ⟨hi, his⟩ := List.forall_mem_cons.mp h
      cases i with
      | text s => exact .text s (ih his)
      | comment s => exact .comment hi (ih his)
      | instruction s => exact .instruction hi (ih his)
      | literal s => exact hi.elim
      | element => exact hi.elim

/-- No tag stands outside of the root. -/
theorem isTag_of_isOutside (h : ∀ i ∈ is, i.IsOutside) :
    ∀ l ∈ Node.lexemesOf (nodesOf is), l.isTag = false := by
  induction is with
  | nil => exact fun _ hl => nomatch hl
  | cons i is ih =>
      obtain ⟨hi, his⟩ := List.forall_mem_cons.mp h
      rw [nodesOf]
      cases i with
      | text s => exact isTag_consText (ih his)
      | comment s => exact List.forall_mem_cons.mpr ⟨rfl, ih his⟩
      | instruction s => exact List.forall_mem_cons.mpr ⟨rfl, ih his⟩
      | literal s => exact hi.elim
      | element => exact hi.elim

/-- What stands before the root is no byte order mark. -/
theorem head?_writeAll_ne {rest : List Char} (h : ∀ i ∈ is, i.IsOutside)
    (hrest : rest.head? ≠ some '\uFEFF') : (writeAll is ++ rest).head? ≠ some '\uFEFF' := by
  induction is with
  | nil => exact hrest
  | cons i is ih =>
      obtain ⟨hi, his⟩ := List.forall_mem_cons.mp h
      cases i with
      | text s =>
          have ih := ih his
          cases hs : s.toList with
          | nil =>
              rw [writeAll, write, hs]
              exact ih
          | cons c cs =>
              -- a blank is not escaped, and a mark is no blank
              have hblank : Text.isBlank c = true := hi c (hs ▸ List.mem_cons_self ..)
              have hnamed : named.all (!Text.isBlank ·) = true := by decide
              have hplain : c ∉ named := fun hmem => by
                simpa [hblank] using List.all_eq_true.mp hnamed c hmem
              rw [writeAll, write, hs, escape, List.flatMap_cons, escapeChar_of_not_mem hplain]
              rintro he
              obtain rfl := Option.some.inj he
              exact absurd hblank (by decide)
      | comment s | instruction s => simp [writeAll, write]
      | literal s => exact hi.elim
      | element => exact hi.elim

end Item

/-- However many marks are in front, they are all taken away. -/
theorem Document.withoutMarks_replicate {source : List Char} (h : source.head? ≠ some '\uFEFF')
    (marks : Nat) : withoutMarks (List.replicate marks '\uFEFF' ++ source) = source := by
  rw [withoutMarks, List.dropWhile_append_of_pos (by simp)]
  cases source with
  | nil => rfl
  | cons c cs => exact List.dropWhile_cons_of_neg fun hc => h (congrArg some (beq_iff_eq.mp hc))

/-- The source of a document is that of its root. -/
theorem isRootOf_writeDocument {name : String} {attributes : List (String × String)}
    {content before behind : List Item} {short : Bool} {n : Node} (marks : Nat)
    (hroot : Writable [.element name attributes content short])
    (hn : nodesOf [.element name attributes content short] = [n])
    (hbefore : ∀ i ∈ before, i.IsOutside) (hbehind : ∀ i ∈ behind, i.IsOutside) :
    n.IsRootOf (Document.withoutMarks
      (writeDocument marks before (.element name attributes content short) behind).toList) := by
  obtain ⟨n', hn', hreads⟩ := exists_nodesOf hroot
  obtain rfl := (List.cons.inj (hn.symm.trans hn')).1
  cases hroot with
  | element short hname hcontent _ =>
      -- the root and what is behind it are read together, up to the end of the source
      let rest := writeAll (.element name attributes content short :: behind)
      obtain ⟨cs, hmarkup⟩ : ∃ cs, rest = '<' :: cs := by
        simp only [rest, writeAll, write]
        split <;> exact ⟨_, rfl⟩
      have hrest : lexemes rest = (n.lexemes ++ Node.lexemesOf (nodesOf behind), none) := by
        have hw : Writable (.element name attributes content short :: behind) :=
          .element short hname hcontent (writable_of_isOutside hbehind)
        have hnil : ∀ run ls, (lexemes []).1 ≠ .text run :: ls := by
          rw [lexemes_nil]
          nofun
        have hread := lexemes_writeAll hw hnil
        rw [List.append_nil, nodesOf_element_cons hn, lexemes_nil, List.append_nil] at hread
        exact hread
      have hsource : Document.withoutMarks (writeDocument marks before
          (.element name attributes content short) behind).toList = writeAll before ++ rest := by
        have hhead : (writeAll before ++ rest).head? ≠ some '\uFEFF' :=
          head?_writeAll_ne hbefore (by rw [hmarkup]; simp)
        rw [← Document.withoutMarks_replicate hhead marks, writeDocument, String.toList_ofList]
        simp only [rest, writeAll, List.append_assoc]
      refine ⟨hreads.isElement, Node.lexemesOf (nodesOf before), Node.lexemesOf (nodesOf behind),
        ?_, ?_⟩
      · rw [hsource, lexemes_writeAll (writable_of_isOutside hbefore), hrest, List.append_assoc]
        rw [hmarkup]
        exact fun _ _ => lexemes_markup_ne_text
      · exact List.forall_mem_append.mpr
          ⟨isTag_of_isOutside hbefore, isTag_of_isOutside hbehind⟩

/-- **Written documents load as what was written**: the root with its name,
    its attributes and its element children in order, with the text of its own
    text and literal sections, and with its content as written if there are no
    elements in it, and so on down the tree.  What stands outside of the root
    does not matter. -/
theorem Document.parse_write {limit : Nat} {name : String} {attributes : List (String × String)}
    {content before behind : List Item} {short : Bool} (marks : Nat)
    (hroot : Writable [.element name attributes content short])
    (hbefore : ∀ i ∈ before, i.IsOutside) (hbehind : ∀ i ∈ behind, i.IsOutside)
    (hlimit : (elementWith name attributes content (elementsOf content)).nesting ≤ limit) :
    parse limit (writeDocument marks before (.element name attributes content short) behind)
      = .ok ⟨elementWith name attributes content (elementsOf content)⟩ := by
  obtain ⟨n, hn, hreads⟩ := exists_nodesOf hroot
  exact parse_eq_ok_iff.mpr
    ⟨⟨n, isRootOf_writeDocument marks hroot hn hbefore hbehind, hreads⟩, hlimit⟩

/-- Content with every kind of item but an instruction. -/
def mixedContent : List Item :=
  [.text "a<b", .comment " c ", .element "i" [("k", "\"")] [] true, .literal "d>", .text "e"]

/-- Two kinds of entities, a comment, a child in the short form and a literal
    section, with a mark and more around the root. -/
theorem Document.parse_write_mixed :
    Writable [.element "flag" [("name", "x & y")] mixedContent false] ∧
      parse defaultDepthLimit ("\uFEFF\n<!-- f --><flag name=\"x &amp; y\">a&lt;b<!-- c -->"
          ++ "<i k=\"&quot;\"/><![CDATA[d>]]>e</flag>\n<?p?>")
        = .ok ⟨{ name := "flag", attributes := [("name", "x & y")], text := "a<bd>e", children :=
            [{ name := "i", attributes := [("k", "\"")], innerXml := some "" }] }⟩ := by
  have hroot : Writable [.element "flag" [("name", "x & y")] mixedContent false] := by
    refine .element false ⟨by decide, by decide, by decide⟩ ?_ .nil
    refine .text _ (.comment (by decide) (.element true ⟨by decide, by decide, by decide⟩ .nil ?_))
    exact .literal (by decide) (.text _ .nil)
  have hsource : writeDocument 1 [.text "\n", .comment " f "]
      (.element "flag" [("name", "x & y")] mixedContent false) [.text "\n", .instruction "p"]
      = "\uFEFF\n<!-- f --><flag name=\"x &amp; y\">a&lt;b<!-- c -->"
          ++ "<i k=\"&quot;\"/><![CDATA[d>]]>e</flag>\n<?p?>" := by
    decide
  refine ⟨hroot, ?_⟩
  rw [← hsource, parse_write 1 hroot (by decide) (by decide) (by decide)]
  rfl

end ModInstall.Markup
