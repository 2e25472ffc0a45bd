import Mathlib.Data.List.Basic
import Mathlib.Tactic.Common

/-!
# Records of separated fields

The format of RFC 4180 over any alphabet.  A field stands in a record as it is, or between quotes with
its own quotes doubled; a record ends with a line feed, with a carriage return before it or not, or with
the text.

* `Dialect.read`: the reader; `none` is a text that is not in the format;
* `Dialect.Writes field text`: the text stands for the field in a record;
* `Dialect.read_lines`: **records that are written field by field are read as they are.**
-/

namespace StellarForge.Encoding

/-- The characters that have a meaning. -/
structure Dialect (α : Type*) where
  separator : α
  quote : α
  carriageReturn : α
  lineFeed : α
  distinct : [separator, quote, carriageReturn, lineFeed].Nodup

namespace Dialect

variable {α : Type*}

/-! ### Reading -/

/-- Where the reader is. -/
inductive ReadState
  /-- Before a record. -/
  | record
  /-- Before a field that is not the first of its record. -/
  | field
  /-- In a field without quotes. -/
  | plain
  /-- In a field between quotes. -/
  | quoted
  /-- After a quote in such a field. -/
  | closing
  /-- After a carriage return that ends a record. -/
  | returned
  deriving DecidableEq, Repr

/-- What a character adds to what is read after it. -/
inductive Action (α : Type*)
  | skip
  | char (c : α)
  /-- A field ends. -/
  | field
  /-- A record ends. -/
  | record

/-- The records of a text, of which the first may have lost its beginning. -/
abbrev Reading (α : Type*) := List (List (List α))

/-- The text belongs to the first field of what is read. -/
def addText (text : List α) (r : Reading α) : Reading α := r.modifyHead (·.modifyHead (text ++ ·))

/-- What an action of the automaton does to the rows that have been read. -/
def Action.apply : Action α → Reading α → Reading α
  | .skip, r => r
  | .char c, r => addText [c] r
  | .field, r => r.modifyHead ([] :: ·)
  | .record, r => [[]] :: r

/-- The text may end here: the records that end with it. -/
def ReadState.finish : ReadState → Option (Reading α)
  | .record => some []
  | .field | .plain | .closing => some [[[]]]
  | .quoted | .returned => none

variable [DecidableEq α] (d : Dialect α)

/-- One character. -/
def step (s : ReadState) (c : α) : Option (ReadState × Action α) :=
  match s with
  | .quoted => if c = d.quote then some (.closing, .skip) else some (.quoted, .char c)
  | .returned => if c = d.lineFeed then some (.record, .record) else none
  | s =>
    if c = d.separator then some (.field, .field)
    else if c = d.carriageReturn then some (.returned, .skip)
    else if c = d.lineFeed then some (.record, .record)
    else if c = d.quote then
      match s with
      | .plain => none
      -- a doubled quote
      | .closing => some (.quoted, .char c)
      | _ => some (.quoted, .skip)
    else if s = .closing then none
    else some (.plain, .char c)

/-- The reader in a state. -/
def readFrom (s : ReadState) : List α → Option (Reading α)
  | [] => s.finish
  | c :: rest =>
    match d.step s c with
    | none => none
    | some (s', action) => (readFrom s' rest).map action.apply

/-- The records of a text. -/
def read (text : List α) : Option (List (List (List α))) := d.readFrom .record text

/-! ### Writing -/

/-- The characters that may not stand in a field without quotes. -/
def Special (c : α) : Prop :=
  c = d.separator ∨ c = d.quote ∨ c = d.carriageReturn ∨ c = d.lineFeed

instance (c : α) : Decidable (d.Special c) := by
  unfold Special
  infer_instance

/-- The quotes of a field are doubled. -/
def double (field : List α) : List α :=
  field.flatMap fun c => if c = d.quote then [c, c] else [c]

/-- The text stands for the field. -/
def Writes (field text : List α) : Prop :=
  text = field ∧ (∀ c ∈ field, ¬ d.Special c) ∨ text = d.quote :: (d.double field ++ [d.quote])

/-- The text stands for the record, and is not empty. -/
def IsLine (record : List (List α)) (line : List α) : Prop :=
  ∃ texts, List.Forall₂ d.Writes record texts ∧ line = [d.separator].intercalate texts ∧ line ≠ []

omit [DecidableEq α] in
theorem distinct_iff : d.separator ≠ d.quote ∧ d.separator ≠ d.carriageReturn ∧
    d.separator ≠ d.lineFeed ∧ d.quote ≠ d.carriageReturn ∧ d.quote ≠ d.lineFeed ∧
    d.carriageReturn ≠ d.lineFeed := by
  have h := d.distinct
  simp only [List.nodup_cons, List.mem_cons, List.not_mem_nil, or_false, not_or] at h
  exact ⟨h.1.1, h.1.2.1, h.1.2.2, h.2.1.1, h.2.1.2, h.2.2.1⟩

omit [DecidableEq α] in
theorem quote_ne_separator : d.quote ≠ d.separator := d.distinct_iff.1.symm

omit [DecidableEq α] in
theorem quote_ne_carriageReturn : d.quote ≠ d.carriageReturn := d.distinct_iff.2.2.2.1

omit [DecidableEq α] in
theorem quote_ne_lineFeed : d.quote ≠ d.lineFeed := d.distinct_iff.2.2.2.2.1

omit [DecidableEq α] in
theorem lineFeed_ne_separator : d.lineFeed ≠ d.separator := d.distinct_iff.2.2.1.symm

omit [DecidableEq α] in
theorem lineFeed_ne_carriageReturn : d.lineFeed ≠ d.carriageReturn := d.distinct_iff.2.2.2.2.2.symm

variable {d} {s : ReadState} {c : α} {field text rest : List α}

/-! ### Fields -/

omit [DecidableEq α] in
theorem addText_nil (r : Reading α) : addText [] r = r := by
  rcases r with _ | ⟨_ | ⟨f, fs⟩, rs⟩ <;> rfl

omit [DecidableEq α] in
theorem addText_append (text text' : List α) (r : Reading α) :
    addText (text ++ text') r = addText text (addText text' r) := by
  rcases r with _ | ⟨_ | ⟨f, fs⟩, rs⟩
  · rfl
  · rfl
  · show ((text ++ text' ++ f) :: fs) :: rs = _
    rw [List.append_assoc]
    rfl

theorem readFrom_cons {s' : ReadState} {action : Action α} (h : d.step s c = some (s', action)) :
    d.readFrom s (c :: rest) = (d.readFrom s' rest).map action.apply := by
  rw [readFrom, h]

/-- What adds nothing. -/
theorem readFrom_skip {s' : ReadState} (h : d.step s c = some (s', .skip)) :
    d.readFrom s (c :: rest) = d.readFrom s' rest := by
  rw [readFrom_cons h]
  show (d.readFrom s' rest).map id = _
  rw [Option.map_id, id]

/-- Between two characters of a field without quotes, or where a field begins or has ended. -/
def ReadState.Open (s : ReadState) : Prop := s ≠ .quoted ∧ s ≠ .returned

theorem readFrom_separator (hs : s.Open) :
    d.readFrom s (d.separator :: rest) = (d.readFrom .field rest).map Action.field.apply := by
  have hstep : d.step s d.separator = some (.field, .field) := by
    cases s with
    | quoted => exact absurd rfl hs.1
    | returned => exact absurd rfl hs.2
    | _ => exact if_pos rfl
  exact readFrom_cons hstep

/-- A line feed ends the record, wherever no quote is open. -/
theorem readFrom_lineFeed (hs : s.Open) :
    d.readFrom s (d.lineFeed :: rest) = (d.readFrom .record rest).map Action.record.apply := by
  have hstep : d.step s d.lineFeed = some (.record, .record) := by
    cases s with
    | quoted => exact absurd rfl hs.1
    | returned => exact absurd rfl hs.2
    | _ =>
      unfold step
      simp only [if_neg d.lineFeed_ne_separator, if_neg d.lineFeed_ne_carriageReturn, if_true]
  exact readFrom_cons hstep

/-- A character of a field without quotes. -/
theorem readFrom_plain (hs : s = .record ∨ s = .field ∨ s = .plain) (hc : ¬ d.Special c) :
    d.readFrom s (c :: rest) = (d.readFrom .plain rest).map (addText [c]) := by
  simp only [Special, not_or] at hc
  have hstep : d.step s c = some (.plain, .char c) := by
    rcases hs with rfl | rfl | rfl
    all_goals
      unfold step
      simp only [if_neg hc.1, if_neg hc.2.1, if_neg hc.2.2.1, if_neg hc.2.2.2]
      rfl
  exact readFrom_cons hstep

/-- Characters that mean nothing else are read as they are. -/
theorem readFrom_plains (hfield : ∀ c ∈ field, ¬ d.Special c)
    (hs : s = .record ∨ s = .field ∨ s = .plain) (hne : field ≠ []) :
    d.readFrom s (field ++ rest) = (d.readFrom .plain rest).map (addText field) := by
  induction field generalizing s with
  | nil => exact absurd rfl hne
  | cons c field ih =>
    have hc : ¬ d.Special c := hfield c (List.mem_cons_self ..)
    rw [List.cons_append, readFrom_plain hs hc]
    by_cases hnil : field = []
    · rw [hnil, List.nil_append]
    · rw [ih (fun c hc => hfield c (List.mem_cons_of_mem _ hc)) (.inr (.inr rfl)) hnil,
        Option.map_map]
      congr 1
      funext r
      exact (addText_append [c] field r).symm

/-- A field between quotes, up to the quote that ends it. -/
theorem readFrom_quoted :
    d.readFrom .quoted (d.double field ++ d.quote :: rest) =
      (d.readFrom .closing rest).map (addText field) := by
  induction field with
  | nil =>
    have hstep : d.step .quoted d.quote = some (.closing, .skip) := if_pos rfl
    rw [double, List.flatMap_nil, List.nil_append, readFrom_skip hstep, funext addText_nil]
    exact Option.map_id'.symm
  | cons c field ih =>
    have hcons : d.readFrom .quoted (d.double (c :: field) ++ d.quote :: rest) =
        (d.readFrom .quoted (d.double field ++ d.quote :: rest)).map (addText [c]) := by
      rw [double, List.flatMap_cons]
      -- a quote is doubled and read as one; any other character is read as it is
      split_ifs with hc
      · have hopens : d.step .quoted c = some (.closing, .skip) := if_pos hc
        have hdoubled : d.step .closing c = some (.quoted, .char c) := by
          subst hc
          unfold step
          simp only [if_neg d.quote_ne_separator, if_neg d.quote_ne_carriageReturn,
            if_neg d.quote_ne_lineFeed, if_true]
        rw [List.cons_append, List.cons_append, readFrom_skip hopens, List.singleton_append,
          List.cons_append, readFrom_cons hdoubled]
        rfl
      · have hstep : d.step .quoted c = some (.quoted, .char c) := if_neg hc
        rw [List.cons_append, List.nil_append, List.cons_append, readFrom_cons hstep]
        rfl
    rw [hcons, ih, Option.map_map]
    congr 1
    funext r
    exact (addText_append [c] field r).symm

/-- **A written field is read as it is**, and the reader goes on after it. -/
theorem readFrom_writes (hw : d.Writes field text) (hs : s = .record ∨ s = .field) :
    ∃ s', ReadState.Open s' ∧ (s' = .record → s = .record ∧ text = []) ∧
      ∀ rest, d.readFrom s (text ++ rest) = (d.readFrom s' rest).map (addText field) := by
  rcases hw with ⟨rfl, hplain⟩ | rfl
  · by_cases hnil : text = []
    · refine ⟨s, ?_, fun h => ⟨h, hnil⟩, fun rest => ?_⟩
      · rcases hs with rfl | rfl <;> exact ⟨nofun, nofun⟩
      · subst hnil
        rw [List.nil_append, funext addText_nil]
        exact Option.map_id'.symm
    · refine ⟨.plain, ⟨nofun, nofun⟩, nofun, fun rest => ?_⟩
      exact readFrom_plains hplain (hs.imp_right .inl) hnil
  · refine ⟨.closing, ⟨nofun, nofun⟩, nofun, fun rest => ?_⟩
    have hstep : d.step s d.quote = some (.quoted, .skip) := by
      rcases hs with rfl | rfl
      all_goals
        unfold step
        simp only [if_neg d.quote_ne_separator, if_neg d.quote_ne_carriageReturn,
          if_neg d.quote_ne_lineFeed, if_true]
    rw [List.cons_append, List.append_assoc, readFrom_skip hstep]
    exact readFrom_quoted

/-! ### Records -/

omit [DecidableEq α] in
theorem intercalate_cons {texts : List (List α)} (hne : texts ≠ []) :
    [c].intercalate (text :: texts) = text ++ c :: [c].intercalate texts := by
  cases texts with
  | nil => exact absurd rfl hne
  | cons text' texts => simp [List.intercalate, List.intersperse]

/-- A record that is followed by another one. -/
theorem readFrom_line {fields texts : List (List α)} (h : List.Forall₂ d.Writes fields texts)
    (hne : fields ≠ []) (hs : s = .record ∨ s = .field) :
    d.readFrom s ([d.separator].intercalate texts ++ d.lineFeed :: rest) =
      (d.readFrom .record rest).map (fields :: ·) := by
  induction h generalizing s with
  | nil => exact absurd rfl hne
  | @cons field text fields texts hw hrest ih =>
    obtain ⟨s', hopen, -, hread⟩ := readFrom_writes hw hs
    -- the last field ends with the line feed, the others with a separator
    by_cases hnil : fields = []
    · subst hnil
      cases hrest
      have hone : [d.separator].intercalate [text] = text := by simp [List.intercalate]
      rw [hone, hread, readFrom_lineFeed hopen, Option.map_map]
      congr 1
      funext r
      show [field ++ []] :: r = _
      rw [List.append_nil]
    · have htexts : texts ≠ [] := by
        rintro rfl
        cases hrest
        exact hnil rfl
      rw [intercalate_cons htexts, List.append_assoc, hread, List.cons_append,
        readFrom_separator hopen, ih hnil (.inr rfl), Option.map_map, Option.map_map]
      congr 1
      funext r
      show ((field ++ []) :: fields) :: r = _
      rw [List.append_nil]

/-- The last record. -/
theorem readFrom_lastLine {fields texts : List (List α)} (h : List.Forall₂ d.Writes fields texts)
    (hne : fields ≠ []) (hs : s = .field ∨ s = .record ∧ [d.separator].intercalate texts ≠ []) :
    d.readFrom s ([d.separator].intercalate texts) = some [fields] := by
  induction h generalizing s with
  | nil => exact absurd rfl hne
  | @cons field text fields texts hw hrest ih =>
    obtain ⟨s', hopen, hstart, hread⟩ := readFrom_writes hw (hs.elim .inr fun h => .inl h.1)
    by_cases hnil : fields = []
    · subst hnil
      cases hrest
      have hone : [d.separator].intercalate [text] = text := by simp [List.intercalate]
      rw [hone] at hs ⊢
      -- the reader is past the beginning of the record
      have hbegun : s' ≠ .record := by
        intro h
        rcases hs with rfl | ⟨-, htext⟩
        · exact absurd (hstart h).1 nofun
        · exact htext (hstart h).2
      have hfinish : d.readFrom s' [] = some [[[]]] := by
        cases s' with
        | record => exact absurd rfl hbegun
        | quoted => exact absurd rfl hopen.1
        | returned => exact absurd rfl hopen.2
        | _ => rfl
      have hend := hread []
      rw [List.append_nil, hfinish] at hend
      rw [hend]
      show some [[field ++ []]] = _
      rw [List.append_nil]
    · have htexts : texts ≠ [] := by
        rintro rfl
        cases hrest
        exact hnil rfl
      rw [intercalate_cons htexts, hread, readFrom_separator hopen, ih hnil (.inl rfl)]
      show some [(field ++ []) :: fields] = _
      rw [List.append_nil]

/-- **Records that are written field by field are read as they are.** -/
theorem read_lines {records : List (List (List α))} {lines : List (List α)}
    (h : List.Forall₂ d.IsLine records lines) :
    d.read ([d.lineFeed].intercalate lines) = some records := by
  induction h with
  | nil => rfl
  | @cons record line records lines hline hrest ih =>
    obtain ⟨texts, hwrites, rfl, hnonempty⟩ := hline
    have hrecord : record ≠ [] := by
      rintro rfl
      cases hwrites
      exact hnonempty rfl
    -- the last line has no line feed behind it
    by_cases hnil : lines = []
    · subst hnil
      cases hrest
      have hone : [d.lineFeed].intercalate [[d.separator].intercalate texts] =
          [d.separator].intercalate texts := by simp [List.intercalate]
      rw [hone]
      exact readFrom_lastLine hwrites hrecord (.inr ⟨rfl, hnonempty⟩)
    · rw [intercalate_cons hnil, read, readFrom_line hwrites hrecord (.inl rfl)]
      show (d.read _).map _ = _
      rw [ih]
      rfl

end Dialect

end StellarForge.Encoding
