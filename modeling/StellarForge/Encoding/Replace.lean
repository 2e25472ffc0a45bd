import Mathlib.Data.List.Infix
import Mathlib.Data.List.Basic

/-!
# Global replacement

`text.replace(/…/g, replacement)` for a pattern of a fixed length, which may ask for the edge of a word
on both sides.  The matches are found from the left and do not overlap; what stands between them are
the pieces of the text.

* `replaceFrom_eq`: the replacement stands between the pieces;
* `fits_eq_false_of_mem_pieces`: **no match is left in a piece**;
* `replaceFrom_append`: a text falls apart at a unit that is in no word;
* `occurs_append_cons`: so does what occurs in it.
-/

namespace StellarForge.Encoding

variable {α : Type*}

/-- A pattern of a fixed length: the class of each unit, and whether there is a `\b` on both sides. -/
structure FixedPattern (α : Type*) where
  classes : List (α → Bool)
  whole : Bool
  ne_nil : classes ≠ []

/-- The text begins with a unit of each class. -/
def fits : List (α → Bool) → List α → Bool
  | [], _ => true
  | _ :: _, [] => false
  | c :: classes, u :: text => c u && fits classes text

section Replace

variable (word : α → Bool)

/-- `\b` after a unit that is in a word or not. -/
def isEdge (before : Bool) (text : List α) : Bool := before != text.head?.any word

namespace FixedPattern

variable (p : FixedPattern α) (replacement : List α)

/-- The pattern matches at the beginning of the text. -/
def matchesAt (before : Bool) (text : List α) : Bool :=
  fits p.classes text && (!p.whole || (isEdge word before text &&
    isEdge word ((text.take p.classes.length).getLast?.any word) (text.drop p.classes.length)))

/-- The replacement from some place on, where the first units belong to the last match. -/
def replaceFrom : Bool → ℕ → List α → List α
  | _, _, [] => []
  | _, skip + 1, u :: text => replaceFrom (word u) skip text
  | before, 0, u :: text =>
    if p.matchesAt word before (u :: text) then
      replacement ++ replaceFrom (word u) (p.classes.length - 1) text
    else u :: replaceFrom (word u) 0 text

/-- `text.replace(/…/g, replacement)` -/
def replace (text : List α) : List α := p.replaceFrom word replacement false 0 text

/-- What the matches leave, from some place on. -/
def piecesFrom : Bool → ℕ → List α → List (List α)
  | _, _, [] => [[]]
  | _, skip + 1, u :: text => piecesFrom (word u) skip text
  | before, 0, u :: text =>
    if p.matchesAt word before (u :: text) then
      [] :: piecesFrom (word u) (p.classes.length - 1) text
    else (piecesFrom (word u) 0 text).modifyHead (u :: ·)

/-- What stands between the matches. -/
def pieces (text : List α) : List (List α) := p.piecesFrom word false 0 text

end FixedPattern

end Replace

variable {word : α → Bool} {p : FixedPattern α} {replacement : List α} {c : α → Bool}
  {classes : List (α → Bool)} {before : Bool} {skip : ℕ} {u : α} {text rest piece : List α}
  {others : List (List α)}

/-! ### Matches -/

theorem fits_cons (c : α → Bool) (classes : List (α → Bool)) (u : α) (text : List α) :
    fits (c :: classes) (u :: text) = (c u && fits classes text) := rfl

/-- A text that fits is as long as the pattern at least. -/
theorem length_le_of_fits (h : fits classes text = true) : classes.length ≤ text.length := by
  induction classes generalizing text with
  | nil => exact Nat.zero_le _
  | cons c classes ih =>
    cases text with
    | nil => cases h
    | cons u text =>
      rw [fits_cons, Bool.and_eq_true] at h
      exact Nat.succ_le_succ (ih h.2)

/-- What follows a match does not matter. -/
theorem fits_append (h : fits classes text = true) (rest : List α) :
    fits classes (text ++ rest) = true := by
  induction classes generalizing text with
  | nil => rfl
  | cons c classes ih =>
    cases text with
    | nil => cases h
    | cons u text =>
      rw [fits_cons, Bool.and_eq_true] at h
      rw [List.cons_append, fits_cons, Bool.and_eq_true]
      exact ⟨h.1, ih h.2⟩

theorem fits_replicate (h : ∀ u ∈ text, c u = true) :
    fits (List.replicate text.length c) text = true := by
  induction text with
  | nil => rfl
  | cons u text ih =>
    rw [List.forall_mem_cons] at h
    rw [List.length_cons, List.replicate_succ, fits_cons, h.1, ih h.2, Bool.and_true]

/-- A match does not run over a unit that is in none of the classes. -/
theorem fits_append_cons (hu : ∀ c ∈ classes, c u = false) (text rest : List α) :
    fits classes (text ++ u :: rest) = fits classes text := by
  induction classes generalizing text with
  | nil => rfl
  | cons c classes ih =>
    rw [List.forall_mem_cons] at hu
    cases text with
    | nil =>
      rw [List.nil_append, fits_cons, hu.1, Bool.false_and]
      rfl
    | cons v text => rw [List.cons_append, fits_cons, fits_cons, ih hu.2]

namespace FixedPattern

theorem length_pos (p : FixedPattern α) : 0 < p.classes.length := List.length_pos_iff.mpr p.ne_nil

theorem fits_nil (p : FixedPattern α) : fits p.classes ([] : List α) = false := by
  rw [← Bool.not_eq_true]
  intro hfits
  exact absurd (length_le_of_fits hfits) (Nat.not_le.mpr p.length_pos)

theorem fits_of_matchesAt (h : p.matchesAt word before text = true) : fits p.classes text = true := by
  rw [matchesAt, Bool.and_eq_true] at h
  exact h.1

theorem matchesAt_of_fits (hwhole : p.whole = false) (before : Bool) (text : List α) :
    p.matchesAt word before text = fits p.classes text := by
  rw [matchesAt, hwhole, Bool.not_false, Bool.true_or, Bool.and_true]

/-- Whether there is a match before a unit that is in no word does not depend on what follows. -/
theorem matchesAt_append_cons (hp : ∀ c ∈ p.classes, c u = false) (hu : word u = false)
    (before : Bool) (text rest : List α) :
    p.matchesAt word before (text ++ u :: rest) = p.matchesAt word before text := by
  rw [matchesAt, matchesAt, fits_append_cons hp]
  cases hfits : fits p.classes text with
  | false => rw [Bool.false_and, Bool.false_and]
  | true =>
    have hlen := length_le_of_fits hfits
    have hhead : (text ++ u :: rest).head? = text.head? := by
      cases text with
      | nil => exact absurd hlen (Nat.not_le.mpr p.length_pos)
      | cons v text => rfl
    have hnext : ((text ++ u :: rest).drop p.classes.length).head?.any word =
        (text.drop p.classes.length).head?.any word := by
      rw [List.drop_append_of_le_length hlen]
      cases text.drop p.classes.length with
      | nil =>
        show word u = false
        exact hu
      | cons v tail => rfl
    rw [isEdge, isEdge, isEdge, isEdge, hhead, hnext, List.take_append_of_le_length hlen]

/-! ### Pieces -/

/-- A text is at least one piece. -/
theorem piecesFrom_ne_nil (p : FixedPattern α) (before : Bool) (skip : ℕ) (text : List α) :
    p.piecesFrom word before skip text ≠ [] := by
  induction text generalizing before skip with
  | nil => exact List.cons_ne_nil _ _
  | cons u text ih =>
    cases skip with
    | succ skip => exact ih _ _
    | zero =>
      rw [piecesFrom]
      split_ifs
      · exact List.cons_ne_nil _ _
      · rw [ne_eq, List.modifyHead_eq_nil_iff]
        exact ih _ _

theorem piecesFrom_of_match (h : p.matchesAt word before (u :: text) = true) :
    p.piecesFrom word before 0 (u :: text) =
      [] :: p.piecesFrom word (word u) (p.classes.length - 1) text := by
  rw [piecesFrom, if_pos h]

/-- Without a match the unit goes to the first piece. -/
theorem piecesFrom_of_not (h : ¬ p.matchesAt word before (u :: text) = true) :
    ∃ first others, p.piecesFrom word (word u) 0 text = first :: others ∧
      p.piecesFrom word before 0 (u :: text) = (u :: first) :: others := by
  obtain ⟨first, others, hpieces⟩ :=
    List.exists_cons_of_ne_nil (p.piecesFrom_ne_nil (word u) 0 text)
  refine ⟨first, others, hpieces, ?_⟩
  rw [piecesFrom, if_neg h, hpieces, List.modifyHead_cons]

theorem replaceFrom_of_match (h : p.matchesAt word before (u :: text) = true) :
    p.replaceFrom word replacement before 0 (u :: text) =
      replacement ++ p.replaceFrom word replacement (word u) (p.classes.length - 1) text := by
  rw [replaceFrom, if_pos h]

theorem replaceFrom_of_not (h : ¬ p.matchesAt word before (u :: text) = true) :
    p.replaceFrom word replacement before 0 (u :: text) =
      u :: p.replaceFrom word replacement (word u) 0 text := by
  rw [replaceFrom, if_neg h]

/-- The replacement stands between the pieces. -/
theorem replaceFrom_eq (p : FixedPattern α) (replacement : List α) (before : Bool) (skip : ℕ)
    (text : List α) : p.replaceFrom word replacement before skip text =
      replacement.intercalate (p.piecesFrom word before skip text) := by
  induction text generalizing before skip with
  | nil => rfl
  | cons u text ih =>
    cases skip with
    | succ skip => exact ih _ _
    | zero =>
      by_cases hmatch : p.matchesAt word before (u :: text) = true
      · rw [replaceFrom_of_match hmatch, piecesFrom_of_match hmatch, ih,
          List.intercalate_cons_of_ne_nil (p.piecesFrom_ne_nil _ _ _), List.nil_append]
      · obtain ⟨first, others, hpieces, hstep⟩ := piecesFrom_of_not hmatch
        rw [replaceFrom_of_not hmatch, hstep, ih, hpieces, List.intercalate_cons_cons_left]

theorem replace_eq (p : FixedPattern α) (replacement text : List α) :
    p.replace word replacement text = replacement.intercalate (p.pieces word text) :=
  replaceFrom_eq ..

/-- The first piece is what comes before the first match. -/
theorem prefix_of_piecesFrom (h : p.piecesFrom word before skip text = piece :: others) :
    piece <+: text.drop skip := by
  induction text generalizing before skip piece others with
  | nil =>
    rw [piecesFrom, List.cons.injEq] at h
    rw [← h.1]
    exact List.nil_prefix
  | cons u text ih =>
    cases skip with
    | succ skip => exact ih h
    | zero =>
      by_cases hmatch : p.matchesAt word before (u :: text) = true
      · rw [piecesFrom_of_match hmatch, List.cons.injEq] at h
        rw [← h.1]
        exact List.nil_prefix
      · obtain ⟨first, others, hpieces, hstep⟩ := piecesFrom_of_not hmatch
        rw [hstep, List.cons.injEq] at h
        rw [← h.1, List.drop_zero, List.cons_prefix_cons]
        exact ⟨rfl, ih hpieces⟩

/-- A piece is a part of the text. -/
theorem sublist_of_mem_piecesFrom (h : piece ∈ p.piecesFrom word before skip text) :
    piece.Sublist text := by
  induction text generalizing before skip piece with
  | nil => rw [List.mem_singleton.mp h]
  | cons u text ih =>
    cases skip with
    | succ skip => exact (ih h).cons u
    | zero =>
      by_cases hmatch : p.matchesAt word before (u :: text) = true
      · rw [piecesFrom_of_match hmatch] at h
        rcases List.mem_cons.mp h with rfl | h
        · exact List.nil_sublist _
        · exact (ih h).cons u
      · obtain ⟨first, others, hpieces, hstep⟩ := piecesFrom_of_not hmatch
        rw [hstep] at h
        rcases List.mem_cons.mp h with rfl | h
        · exact (ih (hpieces ▸ List.mem_cons_self)).cons_cons u
        · exact (ih (hpieces ▸ List.mem_cons_of_mem _ h)).cons u

/-- No match is left in a piece: no end of it begins with one. -/
theorem fits_eq_false_of_mem_piecesFrom (hwhole : p.whole = false)
    (h : piece ∈ p.piecesFrom word before skip text) (hrest : rest <:+ piece) :
    fits p.classes rest = false := by
  induction text generalizing before skip piece with
  | nil =>
    rw [List.mem_singleton.mp h, List.suffix_nil] at hrest
    rw [hrest, p.fits_nil]
  | cons u text ih =>
    cases skip with
    | succ skip => exact ih h hrest
    | zero =>
      by_cases hmatch : p.matchesAt word before (u :: text) = true
      · rw [piecesFrom_of_match hmatch] at h
        rcases List.mem_cons.mp h with rfl | h
        · rw [List.suffix_nil.mp hrest, p.fits_nil]
        · exact ih h hrest
      · obtain ⟨first, others, hpieces, hstep⟩ := piecesFrom_of_not hmatch
        rw [hstep] at h
        rcases List.mem_cons.mp h with rfl | h
        · rcases List.suffix_cons_iff.mp hrest with rfl | hrest
          · -- the match would have been found
            obtain ⟨tail, rfl⟩ : first <+: text := prefix_of_piecesFrom hpieces
            rw [matchesAt_of_fits hwhole] at hmatch
            rw [← Bool.not_eq_true]
            intro hfits
            exact hmatch (fits_append hfits tail)
          · exact ih (hpieces ▸ List.mem_cons_self) hrest
        · exact ih (hpieces ▸ List.mem_cons_of_mem _ h) hrest

/-- A text without a match is one piece. -/
theorem piecesFrom_eq_singleton (h : ∀ rest, rest <:+ text → fits p.classes rest = false)
    (before : Bool) : p.piecesFrom word before 0 text = [text] := by
  induction text generalizing before with
  | nil => rfl
  | cons u text ih =>
    have hmatch : ¬ p.matchesAt word before (u :: text) = true := by
      intro hmatch
      have hfits := fits_of_matchesAt hmatch
      rw [h _ List.suffix_rfl] at hfits
      cases hfits
    have htext := ih (fun rest hrest => h rest (hrest.trans (List.suffix_cons u text))) (word u)
    obtain ⟨first, others, hpieces, hstep⟩ := piecesFrom_of_not hmatch
    rw [htext, List.cons.injEq] at hpieces
    rw [hstep, ← hpieces.1, ← hpieces.2]

/-! ### Words -/

/-- The first units belong to the last match. -/
theorem replaceFrom_of_length_le (h : text.length ≤ skip) :
    p.replaceFrom word replacement before skip text = [] := by
  induction text generalizing before skip with
  | nil => rfl
  | cons u text ih =>
    cases skip with
    | zero => cases h
    | succ skip => exact ih (Nat.le_of_succ_le_succ h)

/-- A text falls apart at a unit that is in no word. -/
theorem replaceFrom_append (hp : ∀ c ∈ p.classes, c u = false) (hu : word u = false)
    (h : skip ≤ text.length) (rest : List α) :
    p.replaceFrom word replacement before skip (text ++ u :: rest) =
      p.replaceFrom word replacement before skip text ++ u :: p.replace word replacement rest := by
  induction text generalizing before skip with
  | nil =>
    -- the unit is no word character, so no match reaches over it
    have hmatch : ¬ p.matchesAt word before (u :: rest) = true := by
      intro hmatch
      have hfits := fits_of_matchesAt hmatch
      rw [← List.nil_append (u :: rest), fits_append_cons hp, p.fits_nil] at hfits
      cases hfits
    rw [List.length_nil, Nat.le_zero] at h
    rw [h, List.nil_append, replaceFrom_of_not hmatch, hu]
    rfl
  | cons v text ih =>
    cases skip with
    | succ skip => exact ih (Nat.le_of_succ_le_succ h)
    | zero =>
      have hmatch := matchesAt_append_cons hp hu before (v :: text) rest
      rw [List.cons_append] at hmatch ⊢
      -- a match inside the word is the same with or without what follows
      by_cases hfound : p.matchesAt word before (v :: text) = true
      · have hlen := length_le_of_fits (fits_of_matchesAt hfound)
        rw [List.length_cons] at hlen
        rw [replaceFrom_of_match hfound, replaceFrom_of_match (hmatch.trans hfound), ih (by omega),
          List.append_assoc]
      · rw [replaceFrom_of_not hfound, replaceFrom_of_not (hmatch ▸ hfound), ih (Nat.zero_le _),
          List.cons_append]

theorem replace_append (hp : ∀ c ∈ p.classes, c u = false) (hu : word u = false)
    (text rest : List α) : p.replace word replacement (text ++ u :: rest) =
      p.replace word replacement text ++ u :: p.replace word replacement rest :=
  replaceFrom_append hp hu (Nat.zero_le _) rest

/-- In a word, a match that asks for its edges goes to the end. -/
theorem drop_of_matchesAt (hwhole : p.whole = true) (h : ∀ u ∈ text, word u = true)
    (hmatch : p.matchesAt word before text = true) : text.drop p.classes.length = [] := by
  have hlen := length_le_of_fits (fits_of_matchesAt hmatch)
  have hlast : (text.take p.classes.length).getLast?.any word = true := by
    cases htake : (text.take p.classes.length).getLast? with
    | none =>
      have hlength := congrArg List.length (List.getLast?_eq_none_iff.mp htake)
      rw [List.length_take, Nat.min_eq_left hlen, List.length_nil] at hlength
      exact absurd hlength p.length_pos.ne'
    | some u => exact h u (List.mem_of_mem_take (List.mem_of_getLast? htake))
  rw [matchesAt, hwhole, Bool.not_true, Bool.false_or, Bool.and_eq_true, Bool.and_eq_true] at hmatch
  have hedge := hmatch.2.2
  rw [hlast, isEdge] at hedge
  cases hdrop : text.drop p.classes.length with
  | nil => rfl
  | cons v tail =>
    have hv : word v = true := h v (List.mem_of_mem_drop (hdrop ▸ List.mem_cons_self))
    rw [hdrop, List.head?_cons, Option.any_some, hv] at hedge
    cases hedge

/-- Inside of a word nothing is replaced by a pattern that asks for its edges. -/
theorem replaceFrom_inside (hwhole : p.whole = true) (h : ∀ u ∈ text, word u = true) :
    p.replaceFrom word replacement true 0 text = text := by
  induction text with
  | nil => rfl
  | cons u text ih =>
    rw [List.forall_mem_cons] at h
    have hmatch : ¬ p.matchesAt word true (u :: text) = true := by
      simp [matchesAt, hwhole, isEdge, h.1]
    rw [replaceFrom_of_not hmatch, h.1, ih h.2]

/-- Of a word, all is replaced or nothing. -/
theorem replace_word (p : FixedPattern α) (replacement : List α) (hwhole : p.whole = true)
    (h : ∀ u ∈ text, word u = true) :
    p.replace word replacement text = text ∨
      text.length = p.classes.length ∧ p.replace word replacement text = replacement := by
  cases text with
  | nil => exact .inl rfl
  | cons u text =>
    by_cases hmatch : p.matchesAt word false (u :: text) = true
    · right
      have hlen := length_le_of_fits (fits_of_matchesAt hmatch)
      have hend : (u :: text).drop p.classes.length = [] := drop_of_matchesAt hwhole h hmatch
      have hlength : (u :: text).length = p.classes.length :=
        Nat.le_antisymm (List.drop_eq_nil_iff.mp hend) hlen
      refine ⟨hlength, ?_⟩
      rw [List.length_cons] at hlength
      rw [replace, replaceFrom_of_match hmatch, replaceFrom_of_length_le (by omega), List.append_nil]
    · rw [List.forall_mem_cons] at h
      left
      rw [replace, replaceFrom_of_not hmatch, h.1, replaceFrom_inside hwhole h.2]

end FixedPattern

/-! ### What occurs in a text -/

/-- The words of a text; some of them are empty. -/
def words (word : α → Bool) (text : List α) : List (List α) := text.splitOnP fun u => !word u

/-- A text is a word, or a word, a unit that is in none and a text. -/
theorem words_induction (word : α → Bool) {motive : List α → Prop}
    (word_only : ∀ text, (∀ u ∈ text, word u = true) → motive text)
    (append_cons : ∀ text u rest, (∀ u ∈ text, word u = true) → word u = false → motive rest →
      motive (text ++ u :: rest)) (text : List α) : motive text := by
  induction hn : text.length using Nat.strong_induction_on generalizing text with
  | _ n ih =>
    -- the word in front, up to the first other unit
    have hfront : ∀ u ∈ text.takeWhile word, word u = true :=
      List.all_eq_true.mp List.all_takeWhile
    have hsplit := List.takeWhile_append_dropWhile (p := word) (l := text)
    cases hdrop : text.dropWhile word with
    | nil =>
      rw [hdrop, List.append_nil] at hsplit
      exact word_only text (hsplit ▸ hfront)
    | cons u rest =>
      have hu : word u = false := by
        have hhead := List.head_dropWhile_not word (l := text) (hdrop ▸ List.cons_ne_nil u rest)
        simpa only [hdrop, List.head_cons] using hhead
      rw [hdrop] at hsplit
      have hlen := congrArg List.length hsplit
      rw [List.length_append, List.length_cons] at hlen
      rw [← hsplit]
      exact append_cons _ u rest hfront hu (ih rest.length (by omega) rest rfl)

theorem words_eq_singleton (h : ∀ u ∈ text, word u = true) : words word text = [text] := by
  apply List.splitOnP_eq_singleton
  intro u hu
  rw [h u hu, Bool.not_true]

theorem words_append_cons (h : ∀ u ∈ text, word u = true) (hu : word u = false) (rest : List α) :
    words word (text ++ u :: rest) = text :: words word rest := by
  rw [words, List.splitOnP_append_cons _ _ (by rw [hu, Bool.not_false]), ← words, ← words,
    words_eq_singleton h, List.singleton_append]

/-- Something occurs in the text between two places that are outside of the words. -/
def Occurs (word : α → Bool) (Q : List α → Prop) (text : List α) : Prop :=
  ∃ front key tail, text = front ++ key ++ tail ∧ front.getLast?.any word = false ∧
    tail.head?.any word = false ∧ Q key

theorem any_getLast?_of_append (h : (text ++ rest).getLast?.any word = false) :
    rest.getLast?.any word = false := by
  rw [List.getLast?_append] at h
  cases hlast : rest.getLast? with
  | none => rfl
  | some u => rwa [hlast, Option.some_or] at h

theorem any_head?_of_append (h : (text ++ rest).head?.any word = false) :
    text.head?.any word = false := by
  cases text with
  | nil => rfl
  | cons u text => exact h

theorem Occurs.append_left {Q : List α → Prop} (h : Occurs word Q text) (hu : word u = false)
    (rest : List α) : Occurs word Q (text ++ u :: rest) := by
  obtain ⟨front, key, tail, rfl, hfront, htail, hkey⟩ := h
  refine ⟨front, key, tail ++ u :: rest, ?_, hfront, ?_, hkey⟩
  · rw [List.append_assoc]
  · cases tail with
    | nil => exact hu
    | cons v tail => exact htail

/-- A word stays one behind a unit that is none of a word. -/
theorem Occurs.append_right {Q : List α → Prop} (h : Occurs word Q rest) (hu : word u = false)
    (text : List α) : Occurs word Q (text ++ u :: rest) := by
  obtain ⟨front, key, tail, rfl, hfront, htail, hkey⟩ := h
  refine ⟨text ++ u :: front, key, tail, ?_, ?_, htail, hkey⟩
  · rw [List.append_assoc, List.append_assoc, List.append_assoc, List.cons_append]
  · rw [List.getLast?_append, List.getLast?_cons, Option.some_or]
    cases hlast : front.getLast? with
    | none => exact hu
    | some v =>
      rw [hlast] at hfront
      exact hfront

/-- What has no place for a unit occurs on one side of it. -/
theorem Occurs.of_append_cons {Q : List α → Prop} (hQ : ∀ key, Q key → key ≠ [] ∧ u ∉ key)
    (h : Occurs word Q (text ++ u :: rest)) : Occurs word Q text ∨ Occurs word Q rest := by
  obtain ⟨front, key, tail, h, hfront, htail, hkey⟩ := h
  obtain ⟨hne, hmem⟩ := hQ key hkey
  rw [List.append_assoc] at h
  rcases List.append_eq_append_iff.mp h with ⟨between, hbefore, hafter⟩ | ⟨between, hbefore, hafter⟩
  · -- it begins after the text
    cases between with
    | nil =>
      obtain ⟨v, key, rfl⟩ := List.exists_cons_of_ne_nil hne
      rw [List.nil_append, List.cons_append, List.cons.injEq] at hafter
      exact absurd (hafter.1 ▸ List.mem_cons_self) hmem
    | cons v between =>
      rw [List.cons_append, List.cons.injEq, ← List.append_assoc] at hafter
      refine .inr ⟨between, key, tail, hafter.2, ?_, htail, hkey⟩
      rw [hbefore, ← List.singleton_append, ← List.append_assoc] at hfront
      exact any_getLast?_of_append hfront
  · rcases List.append_eq_append_iff.mp hafter with ⟨beyond, hin, hout⟩ | ⟨beyond, hin, hout⟩
    · rw [hout] at htail
      refine .inl ⟨front, key, beyond, ?_, hfront, any_head?_of_append htail, hkey⟩
      rw [hbefore, hin, List.append_assoc]
    · cases beyond with
      | nil =>
        rw [List.append_nil] at hin
        refine .inl ⟨front, key, [], ?_, hfront, rfl, hkey⟩
        rw [hbefore, hin, List.append_nil]
      | cons v beyond =>
        rw [List.cons_append, List.cons.injEq] at hout
        rw [hin, hout.1] at hmem
        exact absurd (List.mem_append_right _ List.mem_cons_self) hmem

theorem occurs_append_cons {Q : List α → Prop} (hQ : ∀ key, Q key → key ≠ [] ∧ u ∉ key)
    (hu : word u = false) (text rest : List α) :
    Occurs word Q (text ++ u :: rest) ↔ Occurs word Q text ∨ Occurs word Q rest :=
  ⟨Occurs.of_append_cons hQ, fun h => h.elim (·.append_left hu rest) (·.append_right hu text)⟩

/-- In a word only the whole word does. -/
theorem occurs_word {Q : List α → Prop} (h : ∀ u ∈ text, word u = true) :
    Occurs word Q text ↔ Q text := by
  constructor
  · rintro ⟨front, key, tail, rfl, hfront, htail, hkey⟩
    -- inside a word nothing stands before the key, and nothing behind it
    have hnil : front = [] := by
      rw [← List.getLast?_eq_none_iff]
      cases hlast : front.getLast? with
      | none => rfl
      | some u =>
        rw [hlast, Option.any_some,
          h u (List.mem_append_left _ (List.mem_append_left _ (List.mem_of_getLast? hlast)))] at hfront
        cases hfront
    have hnil' : tail = [] := by
      cases tail with
      | nil => rfl
      | cons u tail =>
        rw [List.head?_cons, Option.any_some,
          h u (List.mem_append_right _ List.mem_cons_self)] at htail
        cases htail
    rwa [hnil, hnil', List.nil_append, List.append_nil]
  · intro hkey
    exact ⟨[], text, [], (List.append_nil _).symm, rfl, rfl, hkey⟩

/-- What occurs anywhere. -/
theorem occurs_iff_infix {Q : List α → Prop} :
    Occurs (fun _ => false) Q text ↔ ∃ key, Q key ∧ key <:+: text := by
  constructor
  · rintro ⟨front, key, tail, rfl, -, -, hkey⟩
    exact ⟨key, hkey, front, tail, rfl⟩
  · rintro ⟨key, hkey, front, tail, rfl⟩
    refine ⟨front, key, tail, rfl, ?_, ?_, hkey⟩
    · cases front.getLast? <;> rfl
    · cases tail <;> rfl

/-- Between the pieces that it joins, a text in which `Q` does not occur makes no place for it. -/
theorem occurs_intercalate {Q : List α → Prop} {v : α} {middle : List α}
    (hQ : ∀ key, Q key → key ≠ [] ∧ u ∉ key ∧ v ∉ key) (hu : word u = false) (hv : word v = false)
    (hmiddle : ¬ Occurs word Q middle) (hne : others ≠ []) :
    Occurs word Q ((u :: (middle ++ [v])).intercalate others) ↔
      ∃ piece ∈ others, Occurs word Q piece := by
  induction others with
  | nil => exact absurd rfl hne
  | cons piece others ih =>
    have hu' : ∀ key, Q key → key ≠ [] ∧ u ∉ key := fun key hkey => ⟨(hQ key hkey).1, (hQ key hkey).2.1⟩
    have hv' : ∀ key, Q key → key ≠ [] ∧ v ∉ key := fun key hkey => ⟨(hQ key hkey).1, (hQ key hkey).2.2⟩
    rw [List.exists_mem_cons_iff]
    cases others with
    | nil =>
      rw [List.intercalate_singleton]
      refine (or_iff_left ?_).symm
      rintro ⟨piece, hmem, -⟩
      cases hmem
    | cons next others =>
      have hjoin : piece ++ (u :: (middle ++ [v])) ++
          (u :: (middle ++ [v])).intercalate (next :: others) =
          piece ++ u :: (middle ++ v :: (u :: (middle ++ [v])).intercalate (next :: others)) := by
        rw [List.append_assoc, List.cons_append, List.append_assoc, List.singleton_append]
      rw [← ih (List.cons_ne_nil _ _), List.intercalate_cons_cons, hjoin,
        occurs_append_cons hu' hu, occurs_append_cons hv' hv]
      exact or_congr_right (or_iff_right hmiddle)

theorem word_of_mem_words {w : List α} (hw : w ∈ words word text) (hu : u ∈ w) : word u = true := by
  induction text using words_induction word with
  | word_only text h =>
    rw [words_eq_singleton h, List.mem_singleton] at hw
    exact h u (hw ▸ hu)
  | append_cons text v rest h hv ih =>
    rw [words_append_cons h hv] at hw
    rcases List.mem_cons.mp hw with rfl | hw
    · exact h u hu
    · exact ih hw

/-- In what is made of a text word by word, something occurs if it does in what is made of a word. -/
theorem occurs_iff_words {Q : List α → Prop} {f : List α → List α}
    (hQ : ∀ key, Q key → key ≠ [] ∧ ∀ u ∈ key, word u = true)
    (hf : ∀ text u rest, word u = false → f (text ++ u :: rest) = f text ++ u :: f rest)
    (text : List α) :
    Occurs word Q (f text) ↔ ∃ w ∈ words word text, Occurs word Q (f w) := by
  induction text using words_induction word with
  | word_only text h => simp [words_eq_singleton h]
  | append_cons text u rest h hu ih =>
    have hkey : ∀ key, Q key → key ≠ [] ∧ u ∉ key := by
      intro key hkey
      refine ⟨(hQ key hkey).1, fun hmem => ?_⟩
      rw [(hQ key hkey).2 u hmem] at hu
      cases hu
    rw [words_append_cons h hu, hf text u rest hu, occurs_append_cons hkey hu, ih,
      List.exists_mem_cons_iff]

end StellarForge.Encoding
