import Ripple.Files.Path
import Mathlib.Data.List.TakeWhile
import Mathlib.Tactic.Common

/-!
# Pieces of paths

A path is split at its slashes (`Path.pieces_eq_splitOn`). What it names are its pieces but for the
idle ones (`Path.named`). The path of the directory in which a path lies names what the path names,
but for the last piece (`Path.parent?_cases`).
-/

namespace Ripple.Path

variable {cs piece : List Char} {ps : List (List Char)} {path parent : String}

/-! ## Texts of pieces -/

theorem pieces_of_ne {c : Char} (h : c ≠ '/') (cs : List Char) :
    ∃ first more, pieces cs = first :: more ∧ pieces (c :: cs) = (c :: first) :: more := by
  rw [pieces, if_neg h]
  cases hpieces : pieces cs with
  | nil =>
    cases cs with
    | nil => cases hpieces
    | cons d ds =>
      rw [pieces] at hpieces
      split at hpieces
      · cases hpieces
      · split at hpieces <;> cases hpieces
  | cons first more => exact ⟨first, more, rfl, rfl⟩

theorem pieces_eq_splitOn (cs : List Char) : pieces cs = cs.splitOn '/' := by
  induction cs with
  | nil => rfl
  | cons c cs ih =>
    rw [List.splitOn_eq_splitOnP, List.splitOnP_cons_eq_if_modifyHead, ← List.splitOn_eq_splitOnP,
      ← ih]
    by_cases hc : c = '/'
    · rw [pieces, if_pos hc, if_pos (beq_iff_eq.2 hc)]
    · obtain ⟨first, more, hrest, hpieces⟩ := pieces_of_ne hc cs
      rw [hpieces, hrest, if_neg (by simpa using hc), List.modifyHead_cons]

theorem pieces_append (h : '/' ∉ piece) (cs : List Char) :
    pieces (piece ++ '/' :: cs) = piece :: pieces cs := by
  rw [pieces_eq_splitOn, pieces_eq_splitOn, List.splitOn_append_cons_self,
    List.splitOn_eq_singleton h, List.singleton_append]

/-- There is no slash in a piece. -/
theorem not_mem_of_mem_pieces (h : piece ∈ pieces cs) : '/' ∉ piece := by
  induction cs generalizing piece with
  | nil =>
    obtain rfl := List.mem_singleton.1 h
    exact List.not_mem_nil
  | cons c cs ih =>
    by_cases hc : c = '/'
    · rw [pieces, if_pos hc, List.mem_cons] at h
      rcases h with rfl | hmem
      · exact List.not_mem_nil
      · exact ih hmem
    · obtain ⟨first, more, hrest, hpieces⟩ := pieces_of_ne hc cs
      rw [hpieces, List.mem_cons] at h
      rcases h with rfl | hmem
      · rw [List.mem_cons, not_or]
        exact ⟨Ne.symm hc, ih (hrest ▸ List.mem_cons_self)⟩
      · exact ih (hrest ▸ List.mem_cons_of_mem _ hmem)

theorem joined_eq_intercalate (ps : List (List Char)) : joined ps = ['/'].intercalate ps := by
  induction ps with
  | nil => rfl
  | cons piece ps ih =>
    cases ps with
    | nil => simp [joined]
    | cons next ps =>
      rw [joined, ih, List.intercalate_cons_cons, List.append_assoc, List.singleton_append]
      exact List.cons_ne_nil _ _

/-- The pieces of a text that has been put together of pieces are these. -/
theorem pieces_joined (h : ∀ piece ∈ ps, '/' ∉ piece) (hne : ps ≠ []) :
    pieces (joined ps) = ps := by
  rw [joined_eq_intercalate, pieces_eq_splitOn, List.splitOn_intercalate '/' h hne]

theorem joined_pieces (cs : List Char) : joined (pieces cs) = cs := by
  rw [joined_eq_intercalate, pieces_eq_splitOn, List.intercalate_splitOn]

theorem joined_prefix (ps more : List (List Char)) : joined ps <+: joined (ps ++ more) := by
  induction ps with
  | nil => exact List.nil_prefix
  | cons piece ps ih =>
    cases ps with
    | nil =>
      cases more with
      | nil => exact List.prefix_refl _
      | cons next more => exact List.prefix_append _ _
    | cons next ps =>
      refine (List.prefix_append_right_inj _).2 ?_
      exact (List.prefix_cons_inj '/').2 ih

/-! ## Parents -/

/-- The pieces of a path that name something. -/
def named (path : String) : List (List Char) := (pieces path.toList).filter (!isIdle ·)

theorem isIdle_last {front : List (List Char)} (h : named path = front ++ [piece]) :
    isIdle piece = false := by
  have hmem : piece ∈ named path := h ▸ List.mem_append_right _ List.mem_cons_self
  simpa using (List.mem_filter.1 hmem).2

/-- A root names nothing, and the rest of the path has the other pieces. After a dot there is a
    slash, if anything. -/
theorem splitRoot_spec (cs : List Char) :
    (splitRoot cs).1 ++ (splitRoot cs).2 = cs ∧
      (pieces cs).filter (!isIdle ·) = (pieces (splitRoot cs).2).filter (!isIdle ·) ∧
      ((splitRoot cs).1 = [] ∨ (splitRoot cs).1 = ['/'] ∨
        (splitRoot cs).1 = ['.'] ∧ (pieces (splitRoot cs).2).head? = some []) := by
  fun_cases splitRoot cs with
  | case1 rest =>
    exact ⟨rfl, by rw [pieces, if_pos rfl, List.filter_cons_of_neg (by decide)], .inr (.inl rfl)⟩
  | case2 => exact ⟨rfl, rfl, .inr (.inr ⟨rfl, rfl⟩)⟩
  | case3 rest =>
    have hslash : pieces ('/' :: rest) = [] :: pieces rest := if_pos rfl
    refine ⟨rfl, ?_, .inr (.inr ⟨rfl, by rw [hslash]; rfl⟩)⟩
    rw [hslash, pieces, if_neg (by decide), hslash]
    rw [List.filter_cons_of_neg (by decide), List.filter_cons_of_neg (by decide)]
  | case4 => exact ⟨rfl, rfl, .inl rfl⟩

/-- What a root and some pieces after it name. -/
theorem filter_pieces_joined {root : List Char} (h : ∀ piece ∈ ps, '/' ∉ piece)
    (hroot : root = [] ∨ root = ['/'] ∨ root = ['.'] ∧ ∀ first ∈ ps.head?, first = []) :
    (pieces (root ++ joined ps)).filter (!isIdle ·) = ps.filter (!isIdle ·) := by
  rcases ps with _ | ⟨first, ps⟩
  · rcases hroot with rfl | rfl | ⟨rfl, -⟩ <;> rfl
  · have hpieces := pieces_joined h (List.cons_ne_nil _ _)
    rcases hroot with rfl | rfl | ⟨rfl, hfirst⟩
    · rw [List.nil_append, hpieces]
    · rw [List.singleton_append, pieces, if_pos rfl, hpieces, List.filter_cons_of_neg (by decide)]
    · obtain rfl := hfirst first rfl
      rcases ps with _ | ⟨next, ps⟩
      · rfl
      · have hjoined : ['.'] ++ joined ([] :: next :: ps) = ['.'] ++ '/' :: joined (next :: ps) :=
          rfl
        have hempty : ([] :: next :: ps).filter (!isIdle ·) = (next :: ps).filter (!isIdle ·) :=
          List.filter_cons_of_neg (by decide)
        rw [hjoined, pieces_append (by decide), hempty, List.filter_cons_of_neg (by decide),
          pieces_joined (List.forall_mem_cons.1 h).2 (List.cons_ne_nil _ _)]

/-- Pieces end in the last one that is not passed over, but for those that are. -/
theorem exists_eq_of_dropWhile {p : List Char → Bool} {last : List Char}
    {before : List (List Char)} (h : ps.reverse.dropWhile p = last :: before) :
    ∃ ends, ps = before.reverse ++ last :: ends ∧ (∀ piece ∈ ends, p piece) ∧ p last = false := by
  have hreverse := List.takeWhile_append_dropWhile (p := p) (l := ps.reverse)
  rw [h] at hreverse
  refine ⟨(ps.reverse.takeWhile p).reverse, ?_, fun piece hmem => ?_, ?_⟩
  · have hpieces := congrArg List.reverse hreverse
    rwa [List.reverse_append, List.reverse_cons, List.append_assoc, List.singleton_append,
      List.reverse_reverse, eq_comm] at hpieces
  · exact List.mem_takeWhile_imp (List.mem_reverse.1 hmem)
  · have hhead := List.head_dropWhile_not p (l := ps.reverse) (by simp [h])
    simpa [h] using hhead

theorem filter_eq_nil_of_isIdle (h : ∀ piece ∈ ps, isIdle piece) : ps.filter (!isIdle ·) = [] := by
  rw [List.filter_eq_nil_iff]
  intro piece hpiece
  simp [h piece hpiece]

/-- A beginning of a path starts where the path does. -/
theorem isAbsolute_of_prefix (h : cs <+: path.toList) (hne : cs ≠ []) :
    isAbsolute (String.ofList cs) = isAbsolute path := by
  obtain ⟨more, hmore⟩ := h
  obtain ⟨c, cs, rfl⟩ := List.exists_cons_of_ne_nil hne
  rw [isAbsolute, isAbsolute, String.toList_ofList, ← hmore, List.cons_append, List.head?_cons,
    List.head?_cons]

/-- What a path names is nothing, or what its parent names and a last piece. -/
theorem parent?_cases (path : String) :
    named path = [] ∨ ∃ parent last, parent? path = some parent ∧
      named path = named parent ++ [last] ∧
      (parent ≠ "" → isAbsolute parent = isAbsolute path) := by
  obtain ⟨hpath, hnamed, hroot⟩ := splitRoot_spec path.toList
  rcases hsplit : splitRoot path.toList with ⟨root, rest⟩
  rw [hsplit] at hpath hnamed hroot
  cases hlast : (pieces rest).reverse.dropWhile isIdle with
  | nil =>
    left
    rw [named, hnamed]
    exact filter_eq_nil_of_isIdle (by simpa [List.dropWhile_eq_nil_iff] using hlast)
  | cons last before =>
    right
    -- Idle pieces at the end are passed over, and those before the last piece.
    obtain ⟨ends, hrest, hends, hidle⟩ := exists_eq_of_dropWhile hlast
    set front := (before.dropWhile isIdle).reverse with hfront
    have hbefore : before.reverse = front ++ (before.takeWhile isIdle).reverse := by
      rw [hfront, ← List.reverse_append, List.takeWhile_append_dropWhile]
    rw [hbefore, List.append_assoc] at hrest
    have hslash : ∀ piece ∈ front, '/' ∉ piece := fun piece hpiece =>
      not_mem_of_mem_pieces (hrest ▸ List.mem_append_left _ hpiece)
    have hparent : named (String.ofList (root ++ joined front)) = front.filter (!isIdle ·) := by
      rw [named, String.toList_ofList]
      refine filter_pieces_joined hslash (hroot.imp_right (Or.imp_right fun ⟨hdot, hhead⟩ =>
        ⟨hdot, ?_⟩))
      intro first hfirst
      rw [hrest, List.head?_append, Option.mem_def.1 hfirst] at hhead
      exact Option.some.inj hhead
    refine ⟨String.ofList (root ++ joined front), last, ?_, ?_, fun hne => ?_⟩
    · rw [parent?, hsplit]
      simp only [hlast, hfront]
    · have hmiddle : (before.takeWhile isIdle).reverse.filter (!isIdle ·) = [] :=
        filter_eq_nil_of_isIdle fun piece hpiece =>
          List.mem_takeWhile_imp (List.mem_reverse.1 hpiece)
      rw [hparent, named, hnamed, hrest, List.filter_append, List.filter_append, hmiddle,
        List.filter_cons_of_pos (by simp [hidle]), filter_eq_nil_of_isIdle hends]
      rfl
    · refine isAbsolute_of_prefix ?_ fun hnil => hne (by rw [hnil])
      rw [← hpath, ← joined_pieces rest, hrest, List.prefix_append_right_inj]
      exact joined_prefix _ _

end Ripple.Path
