import Mathlib.Data.List.TakeWhile
import ModInstall.Proofs.Markup.Cutting
import ModInstall.Proofs.Markup.Escape
import ModInstall.Proofs.Markup.Select
import ModInstall.Proofs.Markup.Syntax

/-! # Where content stands in its source

    An element without child elements keeps its content as written, and this
    is a stretch of the source: it follows the `>` of the start tag and goes
    up to the `</` of the end tag.  To say which tags these are, elements are
    counted in the order of their start tags (`Element.preorder`), and so are
    the lexemes that begin one (`Lexeme.isStart`); the two counts agree on
    whatever nodes stand for (`StandsAt.of_yields`).  Written content without
    a `<` is one run of text, so the text of the element is what that says
    with its entities replaced. -/

namespace ModInstall.Markup

/-- Whether an element begins with a lexeme. -/
def Lexeme.isStart : Lexeme → Bool
  | .openTag _ | .emptyTag _ => true
  | .text _ | .literal _ | .ignored _ | .closeTag _ => false

namespace Element

mutual

/-- The elements of a tree, each before its children. -/
def preorder : Element → List Element
  | e@⟨_, _, cs, _, _⟩ => e :: preorderOf cs

/-- The elements of some trees, one tree after the other. -/
def preorderOf : List Element → List Element
  | [] => []
  | e :: es => preorder e ++ preorderOf es

end

theorem preorder_eq (e : Element) : e.preorder = e :: preorderOf e.children := by
  cases e
  rw [preorder]

theorem preorderOf_eq_flatMap (es : List Element) : preorderOf es = es.flatMap preorder := by
  induction es with
  | nil => rw [preorderOf, List.flatMap_nil]
  | cons e es ih => rw [preorderOf, ih, List.flatMap_cons]

/-- What is in a tree is its root or in one of the trees below it. -/
theorem mem_preorder_iff_eq_or {e x : Element} :
    x ∈ e.preorder ↔ x = e ∨ ∃ c ∈ e.children, x ∈ c.preorder := by
  rw [preorder_eq, preorderOf_eq_flatMap, List.mem_cons, List.mem_flatMap]

/-- The children of what is in a tree are in it as well. -/
theorem mem_preorder_child {e x c : Element} (hx : x ∈ e.preorder) (hc : c ∈ x.children) :
    c ∈ e.preorder := by
  induction e with
  | node e ih =>
      refine mem_preorder_iff_eq_or.mpr (Or.inr ?_)
      rcases mem_preorder_iff_eq_or.mp hx with rfl | ⟨d, hd, hxd⟩
      · exact ⟨c, hc, mem_preorder_iff_eq_or.mpr (Or.inl rfl)⟩
      · exact ⟨d, hd, ih d hd hxd⟩

/-- What is inside of a part is inside of the whole. -/
theorem Within.trans {e c x : Element} (hc : Within e c) (hx : Within c x) : Within e x := by
  induction hx with
  | root => exact hc
  | child _ hmem ih => exact ih.child hmem

/-- The order lists just what can be reached from child to child. -/
theorem mem_preorder_iff {e x : Element} : x ∈ e.preorder ↔ Within e x := by
  constructor
  · intro hx
    induction e with
    | node e ih =>
        rcases mem_preorder_iff_eq_or.mp hx with rfl | ⟨c, hc, hxc⟩
        · exact .root
        · exact (Within.root.child hc).trans (ih c hc hxc)
  · intro h
    induction h with
    | root => exact mem_preorder_iff_eq_or.mpr (Or.inl rfl)
    | child _ hmem ih => exact mem_preorder_child ih hmem

end Element

/-- An element comes before all that is read from its content. -/
theorem Element.preorder_ofContent (tag : List Char) (attributes : List (String × String))
    (content : List Node) (children : List Element) (text : List Char) :
    (ofContent tag attributes content children text).preorder
      = ofContent tag attributes content children text :: preorderOf children :=
  preorder_eq _

/-! ## Elements among lexemes -/

/-- An element is read from some of these lexemes, behind the start of `k`
    others. -/
def StandsAt (ls : List Lexeme) (k : Nat) (e : Element) : Prop :=
  ∃ before n behind, ls = before ++ Node.lexemes n ++ behind ∧
    before.countP Lexeme.isStart = k ∧ n.Reads e

namespace StandsAt

variable {ls : List Lexeme} {k : Nat} {e : Element}

/-- The lexemes of a node begin with the start of its element. -/
theorem of_reads {n : Node} (h : n.Reads e) : StandsAt n.lexemes 0 e :=
  ⟨[], n, [], by simp, rfl, h⟩

theorem append_left (h : StandsAt ls k e) (front : List Lexeme) :
    StandsAt (front ++ ls) (front.countP Lexeme.isStart + k) e := by
  obtain ⟨before, n, behind, rfl, rfl, hn⟩ := h
  exact ⟨front ++ before, n, behind, by simp, by rw [List.countP_append], hn⟩

theorem append_right (h : StandsAt ls k e) (back : List Lexeme) : StandsAt (ls ++ back) k e := by
  obtain ⟨before, n, behind, rfl, hk, hn⟩ := h
  exact ⟨before, n, behind ++ back, by simp, hk, hn⟩

end StandsAt

/-- Nodes have as many lexemes that begin an element as they stand for
    elements. -/
theorem Yields.countP_isStart {ns : List Node} {es : List Element} {t : List Char}
    (h : Yields ns es t) :
    (Node.lexemesOf ns).countP Lexeme.isStart = (Element.preorderOf es).length := by
  induction h with
  | nil => rfl
  | text _ _ ih | literal _ _ ih | ignored _ _ ih =>
      rw [Node.lexemesOf_cons, List.countP_append, ih]
      exact Nat.zero_add _
  | empty _ _ ih =>
      rw [Node.lexemesOf_cons, List.countP_append, ih, Element.preorderOf,
        Element.preorder_ofContent, List.length_append]
      rfl
  | element _ _ _ _ ihContent ih =>
      rw [Node.lexemesOf_cons, List.countP_append, ih, Element.preorderOf,
        Element.preorder_ofContent, List.length_append, Node.lexemes, List.countP_cons,
        List.countP_append, ihContent]
      rfl

/-- The elements that nodes stand for are read from their lexemes in the order
    of the start tags. -/
theorem StandsAt.of_yields {ns : List Node} {es : List Element} {t : List Char}
    (h : Yields ns es t) {k : Nat} {x : Element} (hx : (Element.preorderOf es)[k]? = some x) :
    StandsAt (Node.lexemesOf ns) k x := by
  induction h generalizing k with
  | nil =>
      rw [Element.preorderOf] at hx
      exact nomatch hx
  | text _ _ ih | literal _ _ ih | ignored _ _ ih =>
      rw [← Nat.zero_add k, Node.lexemesOf_cons]
      exact (ih hx).append_left _
  | empty hread hns ih =>
      rw [Element.preorderOf, Element.preorder_ofContent] at hx
      rw [Node.lexemesOf_cons]
      cases k with
      | zero =>
          obtain rfl := Option.some.inj hx
          exact (of_reads (.empty hread)).append_right _
      | succ k =>
          rw [Nat.add_comm k 1]
          exact (ih hx).append_left _
  | @element tag endTag t ts attributes content ns children es hread hname hcontent hns
      ihContent ih =>
      have hcount : (Node.element tag content endTag).lexemes.countP Lexeme.isStart
          = 1 + (Element.preorderOf children).length := by
        rw [← hcontent.countP_isStart, Node.lexemes, List.countP_cons, List.countP_append]
        exact Nat.add_comm ..
      rw [Element.preorderOf, Element.preorder_ofContent] at hx
      rw [Node.lexemesOf_cons]
      cases k with
      | zero =>
          obtain rfl := Option.some.inj hx
          exact (of_reads (.element hread hname hcontent)).append_right _
      | succ k =>
          rw [List.cons_append, List.getElem?_cons_succ] at hx
          by_cases hk : k < (Element.preorderOf children).length
          · -- inside, behind the start tag
            rw [List.getElem?_append_left hk] at hx
            rw [Nat.add_comm k 1]
            exact (((ihContent hx).append_right [.closeTag endTag]).append_left
              [.openTag tag]).append_right _
          · rw [List.getElem?_append_right (Nat.le_of_not_lt hk)] at hx
            have hstands := (ih hx).append_left (Node.element tag content endTag).lexemes
            rw [hcount] at hstands
            convert hstands using 1
            omega

/-- Only tags begin elements. -/
theorem Lexeme.isStart_of_not_isTag {l : Lexeme} (h : l.isTag = false) : l.isStart = false := by
  cases l with
  | text | literal | ignored => rfl
  | openTag | emptyTag | closeTag => exact nomatch h

/-- The elements of a document are read from its source in their order. -/
theorem Document.standsAt_of_parse {limit : Nat} {source : String} {d : Document}
    (h : parse limit source = .ok d) :
    ∃ ls, lexemes (withoutMarks source.toList) = (ls, none) ∧
      ∀ k e, d.root.preorder[k]? = some e → StandsAt ls k e := by
  obtain ⟨⟨root, ⟨-, before, behind, hls, houtside⟩, hroot⟩, -⟩ := parse_eq_ok_iff.mp h
  refine ⟨_, hls, fun k e he => ?_⟩
  have hroots : Element.preorderOf [d.root] = d.root.preorder := by
    rw [Element.preorderOf, Element.preorderOf, List.append_nil]
  have hstands := StandsAt.of_yields (.cons hroot .nil) (hroots ▸ he)
  have hbefore : before.countP Lexeme.isStart = 0 := by
    refine List.countP_eq_zero.mpr fun l hl => ?_
    rw [Lexeme.isStart_of_not_isTag (houtside l (List.mem_append_left _ hl))]
    decide
  rw [Node.lexemesOf_cons, Node.lexemesOf, List.append_nil] at hstands
  have hstands := (hstands.append_left before).append_right behind
  rwa [hbefore, Nat.zero_add] at hstands

/-! ## Content without markup -/

theorem Node.lexemes_ne_nil (n : Node) : n.lexemes ≠ [] := by
  cases n <;> simp [lexemes]

theorem Node.lexemesOf_eq_nil_iff {ns : List Node} : lexemesOf ns = [] ↔ ns = [] := by
  cases ns with
  | nil => simp [lexemesOf]
  | cons n ns => simp [n.lexemes_ne_nil]

/-- One run of text is all there is, if it is the only lexeme. -/
theorem Node.eq_text_of_lexemesOf {ns : List Node} {run : List Char}
    (h : lexemesOf ns = [.text run]) : ns = [.text run] := by
  cases ns with
  | nil =>
      rw [lexemesOf] at h
      cases h
  | cons n ns =>
      rw [lexemesOf_cons] at h
      cases n with
      | text run' =>
          obtain ⟨hrun, hns⟩ := List.cons.inj h
          rw [lexemesOf_eq_nil_iff.mp hns, Lexeme.text.inj hrun]
      | literal | ignored | empty | element => cases (List.cons.inj h).1

/-- Where no entity begins there is nothing to replace. -/
theorem unescape_of_not_mem {cs : List Char} (h : '&' ∉ cs) : unescape cs = .ok cs := by
  have hdrop : cs.dropWhile (· != '&') = [] := by
    refine List.dropWhile_eq_nil_iff.mpr fun c hc => ?_
    exact bne_iff_ne.mpr fun he => h (he ▸ hc)
  rw [unescape, Entity.unescapeFrom_eq, hdrop]

/-- Nodes without markup, in a source that is cut into lexemes, stand for what
    is written with its entities replaced. -/
theorem Yields.unescape_source {content : List Node} {t source : List Char}
    (h : Yields content [] t) {before behind : List Lexeme}
    (hcut : Cut source (before ++ Node.lexemesOf content ++ behind))
    (hplain : '<' ∉ Node.source content) : unescape (Node.source content) = .ok t := by
  rcases hcut.eq_text_of_not_mem hplain with hnone | ⟨run, hrun⟩
  · obtain rfl := Node.lexemesOf_eq_nil_iff.mp hnone
    cases h
    rw [Node.source, hnone]
    exact unescape_of_not_mem List.not_mem_nil
  · obtain rfl := Node.eq_text_of_lexemesOf hrun
    cases h with
    | @text _ t _ _ _ ht hns =>
        cases hns
        rw [Node.source, hrun, List.append_nil, ← ht]
        simp [Lexeme.source]

/-! ## Written content in the source -/

/-- In a source, this is the content of the element whose start is the one
    behind `k` others: nothing if it has one tag for start and end, and else
    what stands between the `>` of its start tag and the `</` of its end
    tag. -/
inductive ContentAt (source : List Char) (k : Nat) (e : Element) : List Char → Prop
  | empty {before behind : List Lexeme} {tag : List Char} :
      lexemes source = (before ++ (Node.empty tag).lexemes ++ behind, none) →
      before.countP Lexeme.isStart = k → (Node.empty tag).Reads e →
      source = before.flatMap Lexeme.source ++ '<' :: tag ++ '/' :: '>'
        :: behind.flatMap Lexeme.source →
      ContentAt source k e []
  | between {before behind : List Lexeme} {tag endTag : List Char} {content : List Node} :
      lexemes source = (before ++ (Node.element tag content endTag).lexemes ++ behind, none) →
      before.countP Lexeme.isStart = k → (Node.element tag content endTag).Reads e →
      source = before.flatMap Lexeme.source ++ '<' :: tag ++ '>' :: Node.source content
        ++ '<' :: '/' :: endTag ++ '>' :: behind.flatMap Lexeme.source →
      ContentAt source k e (Node.source content)

/-- What is kept as written of an element that stands somewhere in a source is
    its content there. -/
theorem StandsAt.contentAt {source : List Char} {ls : List Lexeme} {k : Nat} {e : Element}
    {w : String} (hls : lexemes source = (ls, none)) (h : StandsAt ls k e)
    (hw : e.innerXml = some w) :
    ContentAt source k e w.toList ∧
      ('<' ∉ w.toList → unescape w.toList = .ok e.text.toList) := by
  obtain ⟨before, n, behind, rfl, hk, hn⟩ := h
  have hcut := cut_of_lexemes hls
  have hsource := hcut.source_eq
  cases hn with
  | @empty tag attributes hread =>
      obtain rfl : "" = w := Option.some.inj hw
      refine ⟨.empty hls hk (.empty hread) ?_, fun _ => unescape_of_not_mem List.not_mem_nil⟩
      rw [← hsource]
      simp [Node.lexemes, Lexeme.source]
  | @element tag endTag t attributes content children hread hname hcontent =>
      cases children with
      | cons c cs => exact absurd hw (Option.some_ne_none w).symm
      | nil =>
          obtain rfl : String.ofList (Node.source content) = w := Option.some.inj hw
          rw [String.toList_ofList]
          constructor
          · refine .between hls hk (.element hread hname hcontent) ?_
            rw [← hsource]
            simp [Node.lexemes, Lexeme.source, Node.source]
          · intro hplain
            -- without a `<` there is one run of text at most between the tags
            have hinner : before ++ (Node.element tag content endTag).lexemes ++ behind
                = before ++ [.openTag tag] ++ Node.lexemesOf content
                  ++ (.closeTag endTag :: behind) := by
              simp [Node.lexemes]
            rw [hinner] at hcut
            rw [hcontent.unescape_source hcut hplain]
            simp [Element.ofContent]

/-- Content is kept for the elements without children, and for no others. -/
theorem StandsAt.innerXml_isSome_iff {ls : List Lexeme} {k : Nat} {e : Element}
    (h : StandsAt ls k e) : e.innerXml.isSome ↔ e.children = [] := by
  obtain ⟨before, n, behind, -, -, hn⟩ := h
  cases hn with
  | empty => exact iff_of_true rfl rfl
  | @element _ _ _ _ _ children => cases children <;> simp [Element.ofContent]

/-- **Content is kept as it is written.**  Of each element of a document that
    was loaded, content is kept exactly if the element has no child elements.
    What is kept is what stands in the source between the tags of that
    element, marks at the beginning of the source left out.  Without markup in
    it, it is the text of the element once its entities are replaced, and
    without entities it is just the text. -/
theorem Document.content_as_written {limit : Nat} {source : String} {d : Document}
    (h : parse limit source = .ok d) :
    (∀ e, d.Contains e ↔ ∃ k : Nat, d.root.preorder[k]? = some e) ∧
    ∀ (k : Nat) (e : Element), d.root.preorder[k]? = some e →
      (e.innerXml.isSome ↔ e.children = []) ∧
      ∀ w, e.innerXml = some w →
        ContentAt (withoutMarks source.toList) k e w.toList ∧
        ('<' ∉ w.toList → unescape w.toList = .ok e.text.toList) ∧
        ('<' ∉ w.toList → '&' ∉ w.toList → e.text = w) := by
  obtain ⟨ls, hls, hstands⟩ := standsAt_of_parse h
  refine ⟨fun e => ?_, fun k e he => ⟨(hstands k e he).innerXml_isSome_iff, fun w hw => ?_⟩⟩
  · rw [← List.mem_iff_getElem?, Element.mem_preorder_iff]
    rfl
  · obtain ⟨hcontent, htext⟩ := (hstands k e he).contentAt hls hw
    refine ⟨hcontent, htext, fun hplain hentity => ?_⟩
    have hsame := (htext hplain).symm.trans (unescape_of_not_mem hentity)
    exact String.toList_injective (Except.ok.inj hsame)

/-- With a mark in front, an entity, and an element without content. -/
theorem Document.content_as_written_marked :
    parse 2 "\uFEFF<a><b>1 &lt; \u00E9</b><n/></a>" = .ok ⟨{ name := "a", children := [
      { name := "b", text := "1 < \u00E9", innerXml := some "1 &lt; \u00E9" },
      { name := "n", innerXml := some "" }] }⟩ ∧
    ContentAt "<a><b>1 &lt; \u00E9</b><n/></a>".toList 1
      { name := "b", text := "1 < \u00E9", innerXml := some "1 &lt; \u00E9" }
      "1 &lt; \u00E9".toList ∧
    unescape "1 &lt; \u00E9".toList = .ok "1 < \u00E9".toList ∧
    ContentAt "<a><b>1 &lt; \u00E9</b><n/></a>".toList 2
      { name := "n", innerXml := some "" } [] := by
  have hload : parse 2 "\uFEFF<a><b>1 &lt; \u00E9</b><n/></a>"
      = .ok ⟨{ name := "a", children := [
        { name := "b", text := "1 < \u00E9", innerXml := some "1 &lt; \u00E9" },
        { name := "n", innerXml := some "" }] }⟩ := by
    decide +kernel
  have hmark : withoutMarks "\uFEFF<a><b>1 &lt; \u00E9</b><n/></a>".toList
      = "<a><b>1 &lt; \u00E9</b><n/></a>".toList := by
    decide
  obtain ⟨-, hkept⟩ := content_as_written hload
  rw [hmark] at hkept
  obtain ⟨hb, htext, -⟩ := (hkept 1 _ rfl).2 "1 &lt; \u00E9" rfl
  obtain ⟨hn, -⟩ := (hkept 2 _ rfl).2 "" rfl
  exact ⟨hload, hb, htext (by decide), hn⟩

end ModInstall.Markup
