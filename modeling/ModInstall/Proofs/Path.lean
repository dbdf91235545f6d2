import ModInstall.Path
import ModInstall.Proofs.Text.Split

/-! # Paths that lead down

    A path that is continued by a name leads one part further and is otherwise
    as it was, whatever it looked like before: with a slash behind it, with a
    `.` in front, or empty.  So names that are pushed one after the other lead
    as many parts down (`parts_foldl_push`), and the text that comes out is the
    path with the names behind it (`foldl_push`). -/

namespace ModInstall.Path

/-- A segment that names something in a directory. -/
structure IsName (segment : String) : Prop where
  ne_empty : segment ≠ ""
  ne_here  : segment ≠ "."
  ne_above : segment ≠ ".."
  no_slash : '/' ∉ segment.toList

/-- What is missing between a path and a name that is to stand behind it. -/
def joint (path : String) : String :=
  if path = "" ∨ path.toList.getLast? = some '/' then "" else "/"

/-- The path that leads on from `path` along some names. -/
def along (path : String) (names : List String) : String :=
  if names = [] then path else path ++ joint path ++ "/".intercalate names

/-! ## Segments -/

variable {sep : Char → Bool} {path name : String} {names : List String}

/-- Pieces that are empty or a dot lead nowhere and are left out. -/
theorem mem_segments_iff {segment : String} :
    segment ∈ segments sep path ↔
      segment ∈ Text.piecesOf sep path ∧ segment ≠ "" ∧ segment ≠ "." := by
  rw [segments, List.mem_filter, decide_eq_true_iff]

/-- No separator stands in a segment. -/
theorem not_sep_of_mem_segments {segment : String} (h : segment ∈ segments sep path) :
    ∀ c ∈ segment.toList, sep c = false := by
  obtain ⟨w, hw, rfl⟩ := List.mem_map.mp (mem_segments_iff.mp h).1
  rw [String.toList_ofList]
  exact Text.not_sep_of_mem_pieces hw

/-- A separator parts the segments before it from those behind it. -/
theorem segments_append (sep : Char → Bool) {c : Char} (hc : sep c = true) (xs ys : List Char) :
    segments sep (String.ofList (xs ++ c :: ys))
      = segments sep (String.ofList xs) ++ segments sep (String.ofList ys) := by
  simp only [segments, Text.piecesOf, String.toList_ofList, Text.pieces_append hc, List.map_append,
    List.filter_append]

theorem segments_of_isName (h : IsName name) : segments (· == '/') name = [name] := by
  have hpieces : Text.pieces (· == '/') name.toList = [name.toList] := by
    refine Text.pieces_of_forall_not fun c hc => beq_false_of_ne ?_
    rintro rfl
    exact h.no_slash hc
  rw [segments, Text.piecesOf, hpieces]
  simp [h.ne_empty, h.ne_here]

/-! ## Parts -/

/-- What a path starts from is settled where its first segment ends. -/
theorem start_append {cs : List Char} (h : cs ≠ []) (ds : List Char) :
    start (cs ++ '/' :: ds) = start cs := by
  match cs with
  | [c] =>
      by_cases hslash : c = '/'
      · rw [hslash]; rfl
      · by_cases hdot : c = '.'
        · rw [hdot]; rfl
        · simp [start, hslash, hdot]
  | a :: b :: cs =>
      show start (a :: b :: (cs ++ '/' :: ds)) = start (a :: b :: cs)
      unfold start
      split <;> simp_all

theorem start_of_isName (h : IsName name) : start name.toList = [] := by
  unfold start
  split
  · next hcs => exact absurd (by rw [hcs]; exact List.mem_cons_self ..) h.no_slash
  · next hcs => exact absurd (String.toList_inj.mp (hcs : _ = ".".toList)) h.ne_here
  · next cs hcs =>
      refine absurd ?_ h.no_slash
      rw [hcs]
      exact List.mem_cons_of_mem _ (List.mem_cons_self ..)
  · rfl

/-- Pushing a name puts it behind the path, with a slash between if one is
    missing. -/
theorem push_eq (path : String) (h : IsName name) :
    push path name = path ++ joint path ++ name := by
  have hhead : name.toList.head? ≠ some '/' := fun hs => h.no_slash (List.mem_of_head? hs)
  rw [push, if_neg hhead, joint]
  by_cases hslash : path = "" ∨ path.toList.getLast? = some '/'
  · rw [if_pos hslash, if_pos hslash, String.append_empty]
  · rw [if_neg hslash, if_neg hslash]

/-- A name is pushed onto nothing, or it stands behind a slash. -/
theorem push_cases (path : String) (h : IsName name) :
    (path = "" ∧ push path name = name) ∨
      ∃ cs, push path name = String.ofList (cs ++ '/' :: name.toList) ∧
        (path = String.ofList cs ∧ cs ≠ [] ∨ path = String.ofList (cs ++ ['/'])) := by
  rw [push_eq path h, joint]
  by_cases hempty : path = ""
  · exact Or.inl ⟨hempty, by rw [if_pos (Or.inl hempty), hempty]; simp⟩
  · refine Or.inr ?_
    by_cases hslash : path.toList.getLast? = some '/'
    · obtain ⟨cs, hcs⟩ := List.getLast?_eq_some_iff.mp hslash
      refine ⟨cs, ?_, Or.inr (by rw [← hcs, String.ofList_toList])⟩
      rw [if_pos (Or.inr hslash)]
      apply String.toList_inj.mp
      simp [hcs]
    · refine ⟨path.toList, ?_, Or.inl ⟨String.ofList_toList.symm, ?_⟩⟩
      · rw [if_neg (not_or.mpr ⟨hempty, hslash⟩)]
        apply String.toList_inj.mp
        simp
      · exact fun hp => hempty (String.toList_eq_nil_iff.mp hp)

/-- A name that is pushed is one segment more. -/
theorem segments_push (path : String) (h : IsName name) :
    segments (· == '/') (push path name) = segments (· == '/') path ++ [name] := by
  have happend := segments_append (· == '/') (rfl : ('/' == '/') = true)
  rcases push_cases path h with ⟨rfl, hpush⟩ | ⟨cs, hpush, ⟨rfl, -⟩ | rfl⟩
  · rw [hpush, segments_of_isName h]
    rfl
  · rw [hpush, happend, String.ofList_toList, segments_of_isName h]
  · rw [hpush, happend, happend, String.ofList_toList, segments_of_isName h]
    -- behind the slash at the end of the path there is no segment
    show _ = _ ++ [] ++ _
    rw [List.append_nil]

/-- A path starts from where it did before a name was pushed. -/
theorem start_push (path : String) (h : IsName name) :
    start (push path name).toList = start path.toList := by
  rcases push_cases path h with ⟨rfl, hpush⟩ | ⟨cs, hpush, ⟨rfl, hcs⟩ | rfl⟩
  · rw [hpush, start_of_isName h]
    rfl
  · rw [hpush, String.toList_ofList, String.toList_ofList, start_append hcs]
  · rw [hpush, String.toList_ofList, String.toList_ofList]
    by_cases hcs : cs = []
    · rw [hcs]
      rfl
    · rw [start_append hcs, start_append hcs]

/-- **A name leads one part further.** -/
theorem parts_push (path : String) (h : IsName name) :
    parts (push path name) = parts path ++ [.name name] := by
  rw [parts, start_push path h, segments_push path h, List.map_append, List.map_singleton,
    Part.ofSegment, if_neg h.ne_above, ← List.append_assoc]
  rfl

/-- Names lead as many parts down. -/
theorem parts_foldl_push (h : ∀ n ∈ names, IsName n) (path : String) :
    parts (names.foldl push path) = parts path ++ names.map .name := by
  induction names generalizing path with
  | nil => exact (List.append_nil _).symm
  | cons n names ih =>
      obtain ⟨hn, hnames⟩ := List.forall_mem_cons.mp h
      rw [List.foldl_cons, ih hnames, parts_push path hn, List.append_assoc]
      rfl

/-- Behind a name that was pushed, a slash is missing. -/
theorem joint_push (path : String) (h : IsName name) : joint (push path name) = "/" := by
  have hne : name.toList ≠ [] := fun hn => h.ne_empty (String.toList_eq_nil_iff.mp hn)
  have hlast : (push path name).toList.getLast? = name.toList.getLast? := by
    rw [push_eq path h, String.toList_append, List.getLast?_append, Option.or_of_isSome]
    exact List.getLast?_isSome.mpr hne
  rw [joint, if_neg]
  rintro (hempty | hslash)
  · rw [push_eq path h] at hempty
    exact h.ne_empty (String.append_eq_empty_iff.mp hempty).2
  · rw [hlast] at hslash
    exact h.no_slash (List.mem_of_getLast? hslash)

/-- Names that are pushed stand behind the path, with slashes between them. -/
theorem foldl_push (h : ∀ n ∈ names, IsName n) (path : String) :
    names.foldl push path = along path names := by
  induction names generalizing path with
  | nil => rfl
  | cons n names ih =>
      obtain ⟨hn, hnames⟩ := List.forall_mem_cons.mp h
      rw [List.foldl_cons, ih hnames, along, along, if_neg (List.cons_ne_nil _ _),
        joint_push path hn, push_eq path hn]
      cases names with
      | nil => simp
      | cons m names => simp [String.append_assoc]

end ModInstall.Path
