/-
Paths with a name at the end. A name goes behind what a path has been joined from
(`join_of_name`), it is the last component of the path (`fileName?_child`), and the path
in front of it is its parent when that ends with a name itself (`parent?_child`).

However a path is spelled, a name that is joined to it is one component more
(`components_join`), and its parent has one less (`components_of_parent?`).
-/
import Mathlib.Data.List.Basic
import Mathlib.Data.List.DropRight
import ReleaseSchema.Path

namespace ReleaseSchema.Path

/-! ## Segments -/

theorem segments_append (text : List Char) {name : List Char} (h : '/' ∉ name) :
    segments (text ++ name) =
      (segments text).dropLast ++ [((segments text).getLast?.getD []) ++ name] := by
  unfold segments
  induction text with
  | nil =>
    have whole : (['/'].intercalate [name]).splitOn '/' = [name] :=
      List.splitOn_intercalate '/' (by simpa using h) (by simp)
    simpa [List.intercalate] using whole
  | cons c text ih =>
    rw [List.cons_append, List.splitOn_cons_eq_if_modifyHead, List.splitOn_cons_eq_if_modifyHead]
    have some := List.splitOn_ne_nil '/' text
    rw [ih]
    cases hsegments : text.splitOn '/' with
    | nil => exact absurd hsegments some
    | cons first others => cases others <;> by_cases hc : c = '/' <;> simp [hc]

theorem segments_child (text : List Char) {name : List Char} (h : '/' ∉ name) :
    segments (text ++ '/' :: name) = segments text ++ [name] := by
  rw [segments, segments, List.splitOn_append_cons_self, List.splitOn_eq_singleton h]

theorem joinSegments_segments (text : List Char) : joinSegments (segments text) = text :=
  List.intercalate_splitOn '/'

/-! ## Joining -/

/-- What is written in front of a relative path. -/
def base (folder : List Char) : List Char :=
  match folder.getLast? with
  | none => []
  | some last => if last = '/' then folder else folder ++ ['/']

theorem join_of_absolute {path : List Char} (h : path.head? = some '/') (folder : List Char) :
    join folder path = path := by
  cases path with
  | nil => cases h
  | cons c path =>
    have hc : c = '/' := by simpa using h
    subst hc
    rfl

theorem join_of_relative {path : List Char} (h : path.head? ≠ some '/') (folder : List Char) :
    join folder path = base folder ++ path := by
  rw [join, base]
  · rcases folder.getLast? with _ | last
    · rfl
    · by_cases hlast : last = '/' <;> simp [hlast]
  · rintro tail rfl
    exact h rfl

/-! ## Names -/

/-- The name of something in a folder: a segment that leads to it. -/
structure IsName (name : List Char) : Prop where
  leads : isIdle name = false
  notUp : name ≠ ['.', '.']
  noSlash : '/' ∉ name

instance (name : List Char) : Decidable (IsName name) :=
  decidable_of_iff (isIdle name = false ∧ name ≠ ['.', '.'] ∧ '/' ∉ name)
    ⟨fun ⟨leads, notUp, noSlash⟩ => ⟨leads, notUp, noSlash⟩,
      fun h => ⟨h.leads, h.notUp, h.noSlash⟩⟩

variable {path name : List Char}

theorem IsName.ne_nil (h : IsName name) : name ≠ [] := by
  rintro rfl
  exact absurd h.leads (by decide)

theorem IsName.relative (h : IsName name) : name.head? ≠ some '/' :=
  fun hhead => h.noSlash (List.mem_of_head? hhead)

theorem IsName.join_end (h : IsName name) (path : List Char) :
    join path name ≠ [] ∧ (join path name).getLast? ≠ some '/' := by
  rw [join_of_relative h.relative]
  refine ⟨fun hnil => h.ne_nil (List.append_eq_nil_iff.1 hnil).2, fun hlast => ?_⟩
  rw [List.getLast?_append_of_ne_nil _ h.ne_nil] at hlast
  exact h.noSlash (List.mem_of_getLast? hlast)

theorem join_of_name (h : IsName name) (hne : path ≠ []) (hlast : path.getLast? ≠ some '/') :
    join path name = path ++ '/' :: name := by
  have hpath := List.getLast?_eq_some_getLast hne
  have other : path.getLast hne ≠ '/' := fun same => hlast (same ▸ hpath)
  rw [join_of_relative h.relative, base, hpath]
  simp [other]

theorem split_child (hne : path ≠ []) (name : List Char) :
    split (path ++ '/' :: name) = ((split path).1, (split path).2 ++ '/' :: name) := by
  obtain ⟨c, path, rfl⟩ := List.exists_cons_of_ne_nil hne
  by_cases hroot : c = '/'
  · subst hroot
    rfl
  by_cases hdot : c = '.'
  · subst hdot
    cases path with
    | nil => rfl
    | cons next path =>
      by_cases hnext : next = '/'
      · subst hnext
        rfl
      · simp [split, hnext]
  · simp [split, hroot, hdot]

theorem chars_append_split (path : List Char) : (split path).1.chars ++ (split path).2 = path := by
  unfold split
  split <;> rfl

theorem significantReversed_child (h : IsName name) (body : List Char) :
    significantReversed (body ++ '/' :: name) = name :: (segments body).reverse := by
  rw [significantReversed, segments_child body h.noSlash, List.reverse_append]
  exact List.dropWhile_cons_of_neg (by simp [h.leads])

theorem fileName?_child (h : IsName name) (hne : path ≠ []) :
    fileName? (path ++ '/' :: name) = some name := by
  rw [fileName?, split_child hne, significantReversed_child h]
  exact if_neg h.notUp

/-- What is in front of the name at the end of a path, without the idle segments behind it. -/
theorem parent?_child (h : IsName name) (hne : path ≠ []) :
    parent? (path ++ '/' :: name) = some ((split path).1.chars ++
      joinSegments ((segments (split path).2).reverse.dropWhile isIdle).reverse) := by
  simp only [parent?, split_child hne, significantReversed_child h]

/-- Of two names at the end of a path, the first is the end of the parent. -/
theorem parent?_child_child {last : List Char} (h : IsName last) (hname : IsName name)
    (hne : path ≠ []) :
    parent? ((path ++ '/' :: name) ++ '/' :: last) = some (path ++ '/' :: name) := by
  have body := significantReversed_child hname (split path).2
  rw [significantReversed] at body
  rw [parent?_child h (by simp), split_child hne, body, List.reverse_cons, List.reverse_reverse,
    ← segments_child _ hname.noSlash, joinSegments_segments, ← List.append_assoc,
    chars_append_split]

/-! ## Components -/

theorem segments_append_slash (text more : List Char) :
    segments (text ++ '/' :: more) = segments text ++ segments more :=
  List.splitOn_append_cons_self _ _

theorem slash_not_mem_segments (text : List Char) : ∀ segment ∈ segments text, '/' ∉ segment := by
  induction text with
  | nil => simp [segments]
  | cons c text ih =>
    obtain ⟨first, others, hsegments⟩ := List.exists_cons_of_ne_nil (List.splitOn_ne_nil '/' text)
    rw [← segments] at hsegments
    obtain ⟨hfirst, hothers⟩ := List.forall_mem_cons.1 (hsegments ▸ ih)
    rw [segments, List.splitOn_cons_eq_if_modifyHead, ← segments, hsegments]
    split
    next =>
      exact List.forall_mem_cons.2 ⟨List.not_mem_nil, List.forall_mem_cons.2 ⟨hfirst, hothers⟩⟩
    next hc =>
      have differs : c ≠ '/' := fun same => hc (beq_iff_eq.2 same)
      exact List.forall_mem_cons.2 ⟨by simp [hfirst, differs.symm], hothers⟩

theorem joinSegments_append {pieces more : List (List Char)} (h : pieces ≠ []) (hmore : more ≠ []) :
    joinSegments (pieces ++ more) = joinSegments pieces ++ '/' :: joinSegments more := by
  induction pieces with
  | nil => exact absurd rfl h
  | cons piece pieces ih =>
    by_cases hpieces : pieces = []
    · subst hpieces
      simp [joinSegments, List.intercalate_cons_of_ne_nil hmore]
    · have behind : pieces ++ more ≠ [] := List.append_ne_nil_of_left_ne_nil hpieces more
      have ih := ih hpieces
      simp only [joinSegments] at ih ⊢
      rw [List.cons_append, List.intercalate_cons_of_ne_nil behind, ih,
        List.intercalate_cons_of_ne_nil hpieces]
      simp

theorem components_append (hne : path ≠ []) (text : List Char) :
    components (path ++ '/' :: text) =
      ((components path).1, (components path).2 ++ (segments text).filter (!isIdle ·)) := by
  simp only [components, split_child hne, segments_append_slash, List.filter_append]

theorem IsName.split_eq (h : IsName name) : split name = (.none, name) := by
  unfold split
  split
  · exact absurd List.mem_cons_self h.noSlash
  · exact absurd h.leads (by decide)
  · exact absurd (List.mem_cons_of_mem _ List.mem_cons_self) h.noSlash
  · rfl

theorem IsName.filter_segments (h : IsName name) : (segments name).filter (!isIdle ·) = [name] := by
  rw [segments, List.splitOn_eq_singleton h.noSlash]
  simp [h.leads]

theorem components_join (h : IsName name) (path : List Char) :
    components (join path name) = ((components path).1, (components path).2 ++ [name]) := by
  have one := h.filter_segments
  by_cases hne : path = []
  · subst hne
    rw [join_of_relative h.relative, base, List.getLast?_nil, List.nil_append]
    simp only [components, h.split_eq, one]
    rfl
  by_cases hlast : path.getLast? = some '/'
  · obtain ⟨front, rfl⟩ := List.getLast?_eq_some_iff.1 hlast
    have joined : join (front ++ ['/']) name = front ++ '/' :: name := by
      simp [join_of_relative h.relative, base]
    rw [joined]
    by_cases hfront : front = []
    · subst hfront
      exact congrArg (Prod.mk Lead.root) one
    · rw [components_append hfront, components_append hfront, one]
      simp [segments, isIdle]
  · rw [join_of_name h hne hlast, components_append hne, one]

/-- The first segments of a path up to a significant one, behind its lead, are a path of these. -/
theorem components_of_segments {kept more : List (List Char)}
    (hsegments : segments (split path).2 = kept ++ more) (hmore : more ≠ [])
    (hlast : ∀ last ∈ kept.getLast?, isIdle last = false) :
    components ((split path).1.chars ++ joinSegments kept) =
      ((split path).1, kept.filter (!isIdle ·)) := by
  by_cases hkept : kept = []
  · subst hkept
    cases (split path).1 <;> rfl
  have body : (split path).2 = joinSegments kept ++ '/' :: joinSegments more := by
    rw [← joinSegments_segments (split path).2, hsegments, joinSegments_append hkept hmore]
  have noSlash : ∀ segment ∈ kept, '/' ∉ segment := fun segment hmem =>
    slash_not_mem_segments _ segment (hsegments ▸ List.mem_append_left more hmem)
  have again : segments (joinSegments kept) = kept := List.splitOn_intercalate '/' noSlash hkept
  have hne : (split path).1.chars ++ joinSegments kept ≠ [] := by
    intro hnil
    rw [(List.append_eq_nil_iff.1 hnil).2] at again
    have idle := hlast [] (by rw [← again]; rfl)
    exact absurd idle (by decide)
  -- the slash that is cut off shows that the lead is still told from what is behind it
  have whole : split path = ((split ((split path).1.chars ++ joinSegments kept)).1,
      (split ((split path).1.chars ++ joinSegments kept)).2 ++ '/' :: joinSegments more) := by
    rw [← split_child hne, List.append_assoc, ← body, chars_append_split]
  have lead := congrArg Prod.fst whole
  have front : joinSegments kept = (split ((split path).1.chars ++ joinSegments kept)).2 :=
    List.append_cancel_right (body.symm.trans (congrArg Prod.snd whole))
  rw [components, ← front, again, ← lead]

/-- A list of segments is cut behind its last significant one. -/
theorem exists_idle (pieces : List (List Char)) :
    ∃ idle, pieces = (pieces.reverse.dropWhile isIdle).reverse ++ idle ∧
      idle.filter (!isIdle ·) = [] := by
  have parts : pieces.rdropWhile isIdle ++ pieces.rtakeWhile isIdle = pieces :=
    List.rdropWhile_append_rtakeWhile
  refine ⟨pieces.rtakeWhile isIdle, parts.symm, List.filter_eq_nil_iff.2 fun segment hmem => ?_⟩
  simp [List.mem_rtakeWhile_imp hmem]

theorem not_isIdle_of_head {pieces rest : List (List Char)} {segment : List Char}
    (h : pieces.dropWhile isIdle = segment :: rest) : isIdle segment = false := by
  have := List.head?_dropWhile_not isIdle pieces
  rw [h] at this
  simpa using this

theorem components_of_parent? (h : (components path).2 ≠ []) :
    ∃ parent, parent? path = some parent ∧
      components parent = ((components path).1, (components path).2.dropLast) := by
  obtain ⟨behind, hbehind, noneBehind⟩ := exists_idle (segments (split path).2)
  cases hreversed : (segments (split path).2).reverse.dropWhile isIdle with
  | nil =>
    rw [hreversed, List.reverse_nil, List.nil_append] at hbehind
    exact absurd (by rw [components, hbehind, noneBehind]) h
  | cons last front =>
    rw [hreversed, List.reverse_cons, List.append_assoc] at hbehind
    obtain ⟨between, hbetween, noneBetween⟩ := exists_idle front.reverse
    rw [List.reverse_reverse] at hbetween
    have parent : parent? path =
        some ((split path).1.chars ++ joinSegments (front.dropWhile isIdle).reverse) := by
      simp only [parent?, significantReversed, hreversed]
    have cut : segments (split path).2 = (front.dropWhile isIdle).reverse ++
        (between ++ ([last] ++ behind)) := by
      rw [← List.append_assoc, ← hbetween, ← hbehind]
    have ends : ∀ segment ∈ (front.dropWhile isIdle).reverse.getLast?, isIdle segment = false := by
      intro segment hsegment
      rw [List.getLast?_reverse, Option.mem_def, List.head?_eq_some_iff] at hsegment
      obtain ⟨others, hothers⟩ := hsegment
      exact not_isIdle_of_head hothers
    refine ⟨_, parent, ?_⟩
    rw [components_of_segments cut (by simp) ends, components, cut]
    simp [noneBetween, noneBehind, not_isIdle_of_head hreversed]

/-- An ancestor has as many components less as it is above. -/
theorem components_of_ancestor? {n : Nat} (h : n ≤ (components path).2.length) :
    ∃ ancestor, ancestor? n path = some ancestor ∧
      components ancestor = ((components path).1, (components path).2.rdrop n) := by
  induction n generalizing path with
  | zero => exact ⟨path, rfl, by rw [List.rdrop_zero]⟩
  | succ n ih =>
    have hne : (components path).2 ≠ [] := List.ne_nil_of_length_pos (Nat.zero_lt_of_lt h)
    obtain ⟨parent, hparent, components_parent⟩ := components_of_parent? hne
    have fewer : n ≤ (components parent).2.length := by
      rw [components_parent, List.length_dropLast]
      omega
    obtain ⟨ancestor, hancestor, hcomponents⟩ := ih fewer
    refine ⟨ancestor, by rw [ancestor?, hparent, Option.bind_some, hancestor], ?_⟩
    rw [hcomponents, components_parent]
    simp only [List.rdrop, List.dropLast_eq_take, List.take_take, List.length_take]
    congr 2
    omega

end ReleaseSchema.Path
