import ModInstall.Package.Image
import ModInstall.Proofs.Path

/-! # Images stay in the package

    The path of an image is written by a stranger, with either kind of slash.
    All that counts of it is whether it begins with a slash and which segments
    it has (`resolve_eq`): one that begins with a slash or goes up anywhere
    finds nothing, and any other leads from the root of the package down along
    its segments.  Ways of writing that change neither of the two
    (`Respelled`) therefore find the same. -/

namespace ModInstall.Image

/-- Whether a character separates the segments of an image path. -/
def isSeparator (c : Char) : Bool :=
  c == '/' || c == '\\'

/-- Whether an image path begins with a separator. -/
def isAbsolute (path : String) : Bool :=
  path.toList.head?.any isSeparator

/-- The segments of an image path, without empty ones and `.`. -/
def segments (path : String) : List String :=
  Path.segments isSeparator path

/-- A path with the same segments, spelled in another way. -/
inductive Respelled : List Char → List Char → Prop
  /-- With another separator in the place of one. -/
  | other (before after : List Char) {s t : Char} : isSeparator s = true → isSeparator t = true →
      Respelled (before ++ s :: after) (before ++ t :: after)
  /-- With another separator behind one. -/
  | doubled (before after : List Char) {s t : Char} : isSeparator s = true → isSeparator t = true →
      Respelled (before ++ s :: after) (before ++ s :: t :: after)
  /-- With a `.` of its own behind a separator. -/
  | dotted (before after : List Char) {s t : Char} : isSeparator s = true → isSeparator t = true →
      Respelled (before ++ s :: after) (before ++ s :: '.' :: t :: after)
  | trans {xs ys zs : List Char} : Respelled xs ys → Respelled ys zs → Respelled xs zs

variable {root path : String}

/-! ## What a path is made of -/

/-- What becomes a slash is what separates. -/
theorem slash_isSeparator (c : Char) :
    ((if c = '\\' then '/' else c) == '/') = isSeparator c := by
  by_cases hc : c = '\\'
  · rw [hc]; rfl
  · rw [if_neg hc, isSeparator, beq_false_of_ne hc, Bool.or_false]

/-- What does not separate is left as it is. -/
theorem slash_of_not_separator {c : Char} (h : isSeparator c = false) :
    (if c = '\\' then '/' else c) = c := by
  refine if_neg ?_
  rintro rfl
  exact absurd h (by decide)

theorem toList_withSlashes (path : String) :
    (withSlashes path).toList = path.toList.map fun c => if c = '\\' then '/' else c :=
  String.toList_ofList

/-- With slashes for backslashes a path has the same segments. -/
theorem segments_withSlashes (path : String) :
    Path.segments (· == '/') (withSlashes path) = segments path := by
  rw [segments, Path.segments, Path.segments, Text.piecesOf, Text.piecesOf, toList_withSlashes,
    Text.pieces_map slash_isSeparator fun c => slash_of_not_separator]

/-- With slashes for backslashes a path begins with one if it is absolute. -/
theorem head?_withSlashes (path : String) :
    (withSlashes path).toList.head? = some '/' ↔ isAbsolute path = true := by
  rw [toList_withSlashes, isAbsolute]
  cases path.toList with
  | nil => simp
  | cons c cs =>
      rw [List.map_cons, List.head?_cons, List.head?_cons, Option.any_some, ← slash_isSeparator,
        beq_iff_eq, Option.some_inj]

/-- Segments that do not lead up are names. -/
theorem isName_of_mem_segments (habove : ".." ∉ segments path) :
    ∀ s ∈ segments path, Path.IsName s := by
  intro s hs
  obtain ⟨-, hempty, hhere⟩ := Path.mem_segments_iff.mp hs
  refine ⟨hempty, hhere, fun h => habove (h ▸ hs), fun hslash => ?_⟩
  exact absurd (Path.not_sep_of_mem_segments hs '/' hslash) (by decide)

/-! ## Following a path -/

/-- Only a path that begins with a slash starts from somewhere else. -/
theorem follow_start (cs : List Char) (directory : String) :
    (Path.start cs).foldlM follow directory
      = if cs.head? = some '/' then none else some directory := by
  unfold Path.start
  split
  · rfl
  · rfl
  · rfl
  · next hslash _ _ =>
      cases cs with
      | nil => rfl
      | cons c cs =>
          refine (if_neg fun hc => ?_).symm
          exact hslash cs (by rw [Option.some.inj hc])

/-- Segments lead down one after the other, unless one of them leads up. -/
theorem follow_segments (ss : List String) (directory : String) :
    (ss.map Path.Part.ofSegment).foldlM follow directory
      = if ".." ∈ ss then none else some (ss.foldl Path.push directory) := by
  induction ss generalizing directory with
  | nil => rfl
  | cons s ss ih =>
      rw [List.map_cons, List.foldlM_cons, List.foldl_cons]
      by_cases hs : s = ".."
      · rw [if_pos (by rw [hs]; exact List.mem_cons_self ..), hs]
        rfl
      · rw [Path.Part.ofSegment, if_neg hs]
        show (ss.map Path.Part.ofSegment).foldlM follow (Path.push directory s) = _
        rw [ih]
        simp only [List.mem_cons, Ne.symm hs, false_or]

/-- **What a path finds** depends on its beginning and its segments only. -/
theorem resolve_eq (root path : String) :
    resolve root path
      = if isAbsolute path = true ∨ ".." ∈ segments path then none
        else some (Path.along root (segments path)) := by
  rw [resolve, Path.parts, List.foldlM_append, follow_start, segments_withSlashes]
  by_cases habsolute : isAbsolute path = true
  · rw [if_pos ((head?_withSlashes path).mpr habsolute), if_pos (Or.inl habsolute)]
    rfl
  · rw [if_neg fun h => habsolute ((head?_withSlashes path).mp h)]
    show ((segments path).map Path.Part.ofSegment).foldlM follow root = _
    rw [follow_segments]
    by_cases habove : ".." ∈ segments path
    · rw [if_pos habove, if_pos (Or.inr habove)]
    · rw [if_neg habove, if_neg (not_or.mpr ⟨habsolute, habove⟩),
        Path.foldl_push (isName_of_mem_segments habove)]

/-- Only absolute paths and those that lead up are refused. -/
theorem resolve_eq_none_iff :
    resolve root path = none ↔ isAbsolute path = true ∨ ".." ∈ segments path := by
  rw [resolve_eq]
  split
  · next h => exact ⟨fun _ => h, fun _ => rfl⟩
  · next h => exact ⟨fun hn => (nomatch hn), fun hs => absurd hs h⟩

/-- A path that finds something leads down from the root, by its segments and
    nothing else. -/
theorem parts_of_resolve {file : String} (h : resolve root path = some file) :
    file = Path.along root (segments path) ∧
      Path.parts file = Path.parts root ++ (segments path).map .name := by
  have hstays : ¬ (isAbsolute path = true ∨ ".." ∈ segments path) := by
    intro hleaves
    rw [resolve_eq_none_iff.mpr hleaves] at h
    exact nomatch h
  rw [resolve_eq, if_neg hstays] at h
  have hnames := isName_of_mem_segments (not_or.mp hstays).2
  obtain rfl := Option.some.inj h
  refine ⟨rfl, ?_⟩
  rw [← Path.foldl_push hnames, Path.parts_foldl_push hnames]

/-! ## Other spellings -/

/-- Separators of one kind and the other begin a path alike. -/
theorem any_head?_append {before after after' : List Char} {s t : Char}
    (h : isSeparator s = isSeparator t) :
    (before ++ s :: after).head?.any isSeparator
      = (before ++ t :: after').head?.any isSeparator := by
  cases before with
  | nil => exact h
  | cons c before => rfl

namespace Respelled

variable {xs ys : List Char}

/-- Respelled paths are absolute together. -/
theorem head? (h : Respelled xs ys) :
    xs.head?.any isSeparator = ys.head?.any isSeparator := by
  induction h with
  | other before after hs ht => exact any_head?_append (hs.trans ht.symm)
  | doubled before after hs ht | dotted before after hs ht => exact any_head?_append rfl
  | trans _ _ ih₁ ih₂ => exact ih₁.trans ih₂

/-- Respelled paths have the same segments. -/
theorem segments_eq (h : Respelled xs ys) :
    segments (String.ofList xs) = segments (String.ofList ys) := by
  have happend : ∀ {s : Char}, isSeparator s = true → ∀ before after : List Char,
      segments (String.ofList (before ++ s :: after))
        = segments (String.ofList before) ++ segments (String.ofList after) :=
    fun hs => Path.segments_append isSeparator hs
  induction h with
  | other before after hs ht => rw [happend hs, happend ht]
  | @doubled before after s t hs ht =>
      rw [happend hs, happend hs, show t :: after = [] ++ t :: after from rfl, happend ht]
      rfl
  | @dotted before after s t hs ht =>
      rw [happend hs, happend hs, show '.' :: t :: after = ['.'] ++ t :: after from rfl, happend ht]
      rfl
  | trans _ _ ih₁ ih₂ => exact ih₁.trans ih₂

end Respelled

/-- **Respelled paths lead to the same file.** -/
theorem resolve_of_respelled {path' : String} (h : Respelled path.toList path'.toList) :
    resolve root path' = resolve root path := by
  have hsegments : segments path = segments path' := by
    simpa only [String.ofList_toList] using h.segments_eq
  rw [resolve_eq, resolve_eq, ← hsegments, isAbsolute, isAbsolute, h.head?]

/-! ## Reading images -/

/-- A loader looks at the file that the path finds, and at no other. -/
theorem directory_congr {read read' : String → Except ReadFailure ByteArray}
    (h : ∀ file ∈ resolve root path, read file = read' file) :
    Loader.directory root read path = Loader.directory root read' path := by
  rw [Loader.directory, Loader.directory]
  cases hfile : resolve root path with
  | none => rfl
  | some file => simp only [h file hfile]

/-- What a loader gives is the path as written, and the bytes of the file that
    it finds. -/
theorem directory_eq_ok {read : String → Except ReadFailure ByteArray} {image : Image}
    (h : Loader.directory root read path = .ok image) :
    image.path = path ∧
      ∃ file ∈ resolve root path, ∃ bytes, read file = .ok bytes ∧ image.bytes = some bytes := by
  rw [Loader.directory] at h
  cases hfile : resolve root path with
  | none =>
      rw [hfile] at h
      exact nomatch h
  | some file =>
      simp only [hfile] at h
      cases hread : read file with
      | error failure =>
          rw [hread] at h
          cases failure <;> exact nomatch h
      | ok bytes =>
          rw [hread] at h
          obtain rfl := Except.ok.inj h
          exact ⟨rfl, file, rfl, bytes, hread, rfl⟩

/-- **Image paths stay in the package.**  A path finds nothing exactly when it
    begins with a separator or has a segment that goes up.  What it finds
    otherwise is the root of the package followed by its segments, in order,
    with no step up behind the root.  Spelling the path in another way does not
    change what it finds.  Reading looks at that file alone, and the image keeps
    the path as it was written. -/
theorem resolve_stays_below (root path : String) :
    (resolve root path = none ↔ isAbsolute path = true ∨ ".." ∈ segments path) ∧
    (∀ file, resolve root path = some file →
      file = Path.along root (segments path) ∧
      Path.parts file = Path.parts root ++ (segments path).map .name) ∧
    (∀ path', Respelled path.toList path'.toList → resolve root path' = resolve root path) ∧
    (∀ read read' : String → Except ReadFailure ByteArray,
      (∀ file ∈ resolve root path, read file = read' file) →
      Loader.directory root read path = Loader.directory root read' path) ∧
    (∀ (read : String → Except ReadFailure ByteArray) (image : Image),
      Loader.directory root read path = .ok image →
      image.path = path ∧
      ∃ file ∈ resolve root path, ∃ bytes, read file = .ok bytes ∧ image.bytes = some bytes) := by
  refine ⟨resolve_eq_none_iff, fun file => parts_of_resolve, fun path' => resolve_of_respelled,
    fun read read' => directory_congr, fun read image => directory_eq_ok⟩

/-- A disk that holds one image, and nothing anywhere else. -/
def oneImage (path : String) : Except ReadFailure ByteArray :=
  if path = "pkg/img/a.png" then .ok .empty else .error .absent

/-- A path that leads down is found in both spellings, and one that goes up in
    between is not. -/
theorem resolve_stays_below_mixed :
    resolve "pkg" "img\\up/..\\a.png" = none ∧
      resolve "pkg" "img/a.png" = some "pkg/img/a.png" ∧
      Path.parts "pkg/img/a.png" = [.name "pkg", .name "img", .name "a.png"] ∧
      Respelled "img/a.png".toList "img\\.\\a.png".toList ∧
      resolve "pkg" "img\\.\\a.png" = some "pkg/img/a.png" ∧
      (∀ file ∈ resolve "pkg" "img\\.\\a.png", oneImage file = .ok .empty) ∧
      Loader.directory "pkg" oneImage "img\\.\\a.png" = .ok ⟨"img\\.\\a.png", some .empty⟩ := by
  obtain ⟨-, hfinds, hspelling, -, -⟩ := resolve_stays_below "pkg" "img/a.png"
  obtain ⟨-, -, -, hreads, hkeeps⟩ := resolve_stays_below "pkg" "img\\.\\a.png"
  have hfile : resolve "pkg" "img/a.png" = some "pkg/img/a.png" := by decide
  have hrespelled : Respelled "img/a.png".toList "img\\.\\a.png".toList :=
    .trans (.other ['i', 'm', 'g'] "a.png".toList rfl rfl)
      (.dotted (t := '\\') ['i', 'm', 'g'] "a.png".toList rfl rfl)
  have hother := (hspelling _ hrespelled).trans hfile
  have hread : ∀ file ∈ resolve "pkg" "img\\.\\a.png", oneImage file = .ok .empty := by
    intro file hmem
    rw [hother] at hmem
    obtain rfl := Option.some.inj hmem
    exact if_pos rfl
  refine ⟨(resolve_stays_below _ _).1.mpr (Or.inr (by decide)), hfile, (hfinds _ hfile).2,
    hrespelled, hother, hread, ?_⟩
  -- where the disk holds nothing else it might as well hold the image everywhere
  rw [hreads oneImage (fun _ => .ok .empty) hread, Loader.directory, hother]

end ModInstall.Image
