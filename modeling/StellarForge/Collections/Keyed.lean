import Mathlib.Data.List.Nodup
import Mathlib.Data.List.Range
import Mathlib.Tactic.Common

/-!
# Numbered sequences of records with distinct keys

`Keyed key` is a sequence of records, in the order in which they were added, no two of which have
the same key.  A record is found by its number (`at?`, from 1 on), its key (`find?`), and its number
from its key (`index?`).  Records are added at the end (`push`) and replaced by one with the same
key (`replace`); nothing else changes the sequence, so a record keeps its number and its key.

The lemmas give the three look-ups after each operation; `Keyed.map_at?_replace` and
`Keyed.bind_find?_replace` say that a replacement is not seen by a projection that it preserves.
-/

namespace StellarForge.Collections

/-- A sequence of records with distinct keys. -/
structure Keyed {α κ : Type*} (key : α → κ) where
  records : List α
  nodup : (records.map key).Nodup

namespace Keyed

variable {α κ : Type*} {key : α → κ}

/-- The sequence without records. -/
def empty : Keyed key := ⟨[], List.nodup_nil⟩

/-- The number of records. -/
def length (r : Keyed key) : ℕ := r.records.length

/-- The record with the number `i`, counting from 1. -/
def at? (r : Keyed key) : ℕ → Option α
  | 0 => none
  | i + 1 => r.records[i]?

/-- The numbers, in increasing order, of the records with the property `p`. -/
def indices (r : Keyed key) (p : α → Bool) : List ℕ :=
  (List.range' 1 r.length).filter fun i => (r.at? i).any p

variable {r : Keyed key} {x y : α} {i : ℕ} {p : α → Bool}

theorem at?_isSome : (r.at? i).isSome ↔ 1 ≤ i ∧ i ≤ r.length := by
  rcases i with _ | i
  · simp [at?]
  · have hget : r.records[i]?.isSome ↔ i < r.records.length := by simp
    rw [at?, hget, length]
    omega

theorem at?_eq_some_mem (h : r.at? i = some x) : x ∈ r.records := by
  rcases i with _ | i
  · simp [at?] at h
  · exact List.mem_of_getElem? h

theorem exists_at?_of_mem (h : x ∈ r.records) : ∃ i, r.at? i = some x := by
  obtain ⟨i, hi⟩ := List.getElem?_of_mem h
  exact ⟨i + 1, hi⟩

/-- Distinct numbers have distinct keys. -/
theorem at?_inj {j : ℕ} (hi : r.at? i = some x) (hj : r.at? j = some y) (h : key x = key y) :
    i = j := by
  rcases i with _ | i
  · simp [at?] at hi
  rcases j with _ | j
  · simp [at?] at hj
  have hi' : i < (r.records.map key).length := by
    rw [List.length_map]
    exact (List.getElem?_eq_some_iff.mp hi).1
  have hij : (r.records.map key)[i]? = (r.records.map key)[j]? := by
    rw [List.getElem?_map, List.getElem?_map]
    simp only [at?] at hi hj
    rw [hi, hj, Option.map_some, Option.map_some, h]
  rw [(List.getElem?_inj hi' r.nodup).mp hij]

theorem eq_of_key_eq (hx : x ∈ r.records) (hy : y ∈ r.records) (h : key x = key y) : x = y :=
  List.inj_on_of_nodup_map r.nodup hx hy h

theorem mem_indices : i ∈ r.indices p ↔ ∃ x, r.at? i = some x ∧ p x = true := by
  rw [indices, List.mem_filter, Option.any_eq_true]
  constructor
  · exact fun h => h.2
  · rintro ⟨x, hx, hp⟩
    have := at?_isSome.mp (Option.isSome_of_eq_some hx)
    exact ⟨by rw [List.mem_range'_1]; omega, x, hx, hp⟩

theorem pairwise_indices : (r.indices p).Pairwise (· < ·) :=
  List.Pairwise.filter _ List.pairwise_lt_range'

@[simp] theorem at?_empty : (empty : Keyed key).at? i = none := by
  cases i <;> rfl

@[simp] theorem indices_empty : (empty : Keyed key).indices p = [] := rfl

variable [DecidableEq κ] {k : κ}

/-- The record with the key `k`. -/
def find? (r : Keyed key) (k : κ) : Option α := r.records.find? fun x => key x = k

/-- The number of the record with the key `k`. -/
def index? (r : Keyed key) (k : κ) : Option ℕ :=
  (r.records.findIdx? fun x => key x = k).map (· + 1)

@[simp] theorem find?_empty : (empty : Keyed key).find? k = none := rfl

@[simp] theorem index?_empty : (empty : Keyed key).index? k = none := rfl

/-- What is found is a record with the key, the only one. -/
theorem find?_eq_some : r.find? k = some x ↔ x ∈ r.records ∧ key x = k := by
  constructor
  · intro h
    exact ⟨List.mem_of_find?_eq_some h, by simpa using List.find?_some h⟩
  · rintro ⟨hx, rfl⟩
    have hsome : (r.find? (key x)).isSome := by
      rw [find?, List.find?_isSome]
      exact ⟨x, hx, by simp⟩
    obtain ⟨y, hy⟩ := Option.isSome_iff_exists.mp hsome
    have hkey : key y = key x := by simpa using List.find?_some hy
    rw [hy, eq_of_key_eq (List.mem_of_find?_eq_some hy) hx hkey]

theorem find?_eq_none : r.find? k = none ↔ ∀ x ∈ r.records, key x ≠ k := by
  rw [find?, List.find?_eq_none]
  simp

theorem key_of_find? (h : r.find? k = some x) : key x = k := (find?_eq_some.mp h).2

/-- The index of a key is the place of its record. -/
theorem index?_eq_some : r.index? k = some i ↔ ∃ x, r.at? i = some x ∧ key x = k := by
  rw [index?, Option.map_eq_some_iff]
  constructor
  · rintro ⟨j, hj, rfl⟩
    obtain ⟨hlt, hp, -⟩ := List.findIdx?_eq_some_iff_getElem.mp hj
    exact ⟨r.records[j], List.getElem?_eq_getElem hlt, by simpa using hp⟩
  · rintro ⟨x, hx, rfl⟩
    rcases hf : r.records.findIdx? fun y => key y = key x with _ | j
    · rw [List.findIdx?_eq_none_iff] at hf
      simpa using hf x (at?_eq_some_mem hx)
    · obtain ⟨hlt, hp, -⟩ := List.findIdx?_eq_some_iff_getElem.mp hf
      have hj : r.at? (j + 1) = some r.records[j] := List.getElem?_eq_getElem hlt
      exact ⟨j, rfl, at?_inj hj hx (by simpa using hp)⟩

/-- What a key finds is at some index. -/
theorem find?_eq_some_iff_at? : r.find? k = some x ↔ ∃ i, r.at? i = some x ∧ key x = k := by
  rw [find?_eq_some]
  constructor
  · rintro ⟨hx, hk⟩
    obtain ⟨i, hi⟩ := exists_at?_of_mem hx
    exact ⟨i, hi, hk⟩
  · rintro ⟨i, hi, hk⟩
    exact ⟨at?_eq_some_mem hi, hk⟩

/-- A key that has a number has a record, and the record has that number. -/
theorem at?_of_index? (hi : r.index? k = some i) (hx : r.find? k = some x) : r.at? i = some x := by
  obtain ⟨y, hy, hk⟩ := index?_eq_some.mp hi
  have := eq_of_key_eq (at?_eq_some_mem hy) (find?_eq_some.mp hx).1 (hk.trans (key_of_find? hx).symm)
  rwa [← this]

/-- A key has an index when it has a record. -/
theorem isSome_index? : (r.index? k).isSome = (r.find? k).isSome := by
  rw [Bool.eq_iff_iff, Option.isSome_iff_exists, Option.isSome_iff_exists]
  constructor
  · rintro ⟨i, hi⟩
    obtain ⟨x, hx, hk⟩ := index?_eq_some.mp hi
    exact ⟨x, find?_eq_some_iff_at?.mpr ⟨i, hx, hk⟩⟩
  · rintro ⟨x, hx⟩
    obtain ⟨i, hi, hk⟩ := find?_eq_some_iff_at?.mp hx
    exact ⟨i, index?_eq_some.mpr ⟨x, hi, hk⟩⟩

/-! ### Adding a record -/

/-- Add a record with a new key at the end. -/
def push (r : Keyed key) (x : α) (h : r.find? (key x) = none) : Keyed key where
  records := r.records ++ [x]
  nodup := by
    rw [List.map_append, List.map_singleton, List.nodup_append]
    refine ⟨r.nodup, List.nodup_singleton _, ?_⟩
    rintro a ha b hb rfl
    obtain ⟨y, hy, hk⟩ := List.mem_map.mp ha
    rw [List.mem_singleton] at hb
    exact find?_eq_none.mp h y hy (hk.trans hb)

section

variable {h : r.find? (key x) = none}

@[simp] theorem records_push : (r.push x h).records = r.records ++ [x] := rfl

@[simp] theorem length_push : (r.push x h).length = r.length + 1 := by simp [length]

/-- A new record has the next index. -/
theorem at?_push : (r.push x h).at? i = if i = r.length + 1 then some x else r.at? i := by
  rcases i with _ | i
  · rfl
  simp only [at?, records_push, length, Nat.add_right_cancel_iff]
  split_ifs with hi
  · rw [hi, List.getElem?_concat_length]
  · rcases Nat.lt_or_gt_of_ne hi with hlt | hgt
    · exact List.getElem?_append_left hlt
    · rw [List.getElem?_eq_none (by simp; omega), List.getElem?_eq_none (by omega)]

theorem find?_push : (r.push x h).find? k = if k = key x then some x else r.find? k := by
  split_ifs with hk
  · exact find?_eq_some.mpr ⟨by simp, hk.symm⟩
  · rw [find?, records_push, List.find?_append, List.find?_singleton,
      decide_eq_false (Ne.symm hk)]
    exact Option.or_none

/-- The key of a new record has the next index, and the others keep theirs. -/
theorem index?_push :
    (r.push x h).index? k = if k = key x then some (r.length + 1) else r.index? k := by
  split_ifs with hk
  · exact index?_eq_some.mpr ⟨x, by rw [at?_push, if_pos rfl], hk.symm⟩
  · ext i
    rw [index?_eq_some, index?_eq_some]
    constructor
    · rintro ⟨y, hy, rfl⟩
      rw [at?_push] at hy
      split_ifs at hy with hi
      · obtain rfl := Option.some.inj hy
        exact absurd rfl hk
      · exact ⟨y, hy, rfl⟩
    · rintro ⟨y, hy, rfl⟩
      have := at?_isSome.mp (Option.isSome_of_eq_some hy)
      exact ⟨y, by rw [at?_push, if_neg (by omega), hy], rfl⟩

/-- The next index joins those of the records that satisfy `p`, if the new one does. -/
theorem indices_push :
    (r.push x h).indices p = r.indices p ++ if p x then [r.length + 1] else [] := by
  have hold : ∀ i ∈ List.range' 1 r.length,
      ((r.push x h).at? i).any p = (r.at? i).any p := by
    intro i hi
    rw [List.mem_range'_1] at hi
    rw [at?_push, if_neg (by omega)]
  rw [indices, length_push, List.range'_concat, List.filter_append, List.filter_congr hold,
    Nat.one_mul, Nat.add_comm 1, List.filter_singleton, at?_push, if_pos rfl, indices,
    Option.any_some, cond_eq_ite]

end

/-! ### Replacing a record -/

/-- Replace the record that has the key of `x` by `x`. -/
def replace (r : Keyed key) (x : α) : Keyed key where
  records := r.records.map fun y => if key y = key x then x else y
  nodup := by
    have : key ∘ (fun y => if key y = key x then x else y) = key := by
      funext y
      simp only [Function.comp_apply]
      split_ifs with h
      · exact h.symm
      · rfl
    rw [List.map_map, this]
    exact r.nodup

@[simp] theorem length_replace : (r.replace x).length = r.length := by simp [length, replace]

theorem at?_replace :
    (r.replace x).at? i = (r.at? i).map fun y => if key y = key x then x else y := by
  rcases i with _ | i
  · rfl
  · exact List.getElem?_map

theorem map_key_at?_replace : ((r.replace x).at? i).map key = (r.at? i).map key := by
  rw [at?_replace, Option.map_map]
  congr 1
  funext y
  simp only [Function.comp_apply]
  split_ifs with h
  · exact h.symm
  · rfl

/-- A record replaced by itself. -/
theorem replace_self (h : r.find? (key x) = some x) : r.replace x = r := by
  have hmap : r.records.map (fun y => if key y = key x then x else y) = r.records.map id := by
    refine List.map_congr_left fun y hy => ?_
    split_ifs with hk
    · exact eq_of_key_eq (find?_eq_some.mp h).1 hy hk.symm
    · rfl
  rw [List.map_id] at hmap
  cases r
  simp only [replace, mk.injEq]
  exact hmap

/-- The last of two replacements of one record counts. -/
theorem replace_replace (h : key y = key x) : (r.replace y).replace x = r.replace x := by
  simp only [replace, mk.injEq, List.map_map]
  refine List.map_congr_left fun z _ => ?_
  simp only [Function.comp_apply, h]
  split_ifs <;> simp_all

/-- A replacement keeps every number. -/
@[simp] theorem index?_replace : (r.replace x).index? k = r.index? k := by
  ext i
  have : (∃ y, (r.replace x).at? i = some y ∧ key y = k) ↔ ∃ y, r.at? i = some y ∧ key y = k := by
    have h := map_key_at?_replace (r := r) (x := x) (i := i)
    rw [← Option.map_eq_some_iff, h, Option.map_eq_some_iff]
  rw [index?_eq_some, index?_eq_some, this]

variable (hy : r.find? (key x) = some y)

include hy

theorem find?_replace_self : (r.replace x).find? (key x) = some x := by
  rw [find?_eq_some]
  refine ⟨List.mem_map.mpr ⟨y, (find?_eq_some.mp hy).1, ?_⟩, rfl⟩
  rw [if_pos (key_of_find? hy)]

omit hy in
/-- The records of other keys stay. -/
theorem find?_replace_of_ne (hk : k ≠ key x) : (r.replace x).find? k = r.find? k := by
  ext z
  rw [find?_eq_some, find?_eq_some, replace, List.mem_map]
  constructor
  · rintro ⟨⟨w, hw, rfl⟩, hz⟩
    split_ifs at hz ⊢ with h
    · exact absurd hz.symm hk
    · exact ⟨hw, hz⟩
  · rintro ⟨hz, rfl⟩
    exact ⟨⟨z, hz, if_neg hk⟩, rfl⟩

/-- A projection that the replacement preserves sees the same record under every number. -/
theorem map_at?_replace {β : Type*} {g : α → β} (hg : g x = g y) :
    ((r.replace x).at? i).map g = (r.at? i).map g := by
  rw [at?_replace, Option.map_map]
  rcases hi : r.at? i with _ | z
  · rfl
  · simp only [Option.map_some, Function.comp_apply, Option.some.injEq]
    split_ifs with h
    · rw [hg, eq_of_key_eq (at?_eq_some_mem hi) (find?_eq_some.mp hy).1
        (h.trans (key_of_find? hy).symm)]
    · rfl

/-- A projection that the replacement preserves sees the same record under every key. -/
theorem bind_find?_replace {β : Type*} {g : α → Option β} (hg : g x = g y) :
    ((r.replace x).find? k).bind g = (r.find? k).bind g := by
  by_cases hk : k = key x
  · rw [hk, find?_replace_self hy, hy, Option.bind_some, Option.bind_some, hg]
  · rw [find?_replace_of_ne hk]

theorem map_find?_replace {β : Type*} {g : α → β} (hg : g x = g y) :
    ((r.replace x).find? k).map g = (r.find? k).map g := by
  rw [Option.map_eq_bind, Option.map_eq_bind]
  exact bind_find?_replace hy (congrArg some hg)

theorem indices_replace (hp : p x = p y) : (r.replace x).indices p = r.indices p := by
  rw [indices, indices, length_replace]
  refine List.filter_congr fun i _ => ?_
  have h := map_at?_replace (i := i) hy hp
  rw [Bool.eq_iff_iff, Option.any_eq_true, Option.any_eq_true, ← Option.map_eq_some_iff,
    ← Option.map_eq_some_iff, h]

omit hy

/-! ### Setting a record -/

/-- Replace the record that has the key of `x`, or add `x` at the end if there is none. -/
def set (r : Keyed key) (x : α) : Keyed key :=
  if h : r.find? (key x) = none then r.push x h else r.replace x

/-- Setting a record changes what its key finds, and nothing else. -/
theorem find?_set : (r.set x).find? k = if k = key x then some x else r.find? k := by
  rw [set]
  split_ifs with hnew hk hk
  · rw [find?_push, if_pos hk]
  · rw [find?_push, if_neg hk]
  · obtain ⟨y, hy⟩ := Option.ne_none_iff_exists'.mp hnew
    rw [hk, find?_replace_self hy]
  · exact find?_replace_of_ne hk

/-- The records after setting one. -/
theorem mem_set : y ∈ (r.set x).records ↔ y = x ∨ y ∈ r.records ∧ key y ≠ key x := by
  have hfind : y ∈ (r.set x).records ↔ (r.set x).find? (key y) = some y := by
    rw [find?_eq_some, and_iff_left rfl]
  rw [hfind, find?_set]
  split_ifs with hk
  · rw [Option.some.injEq]
    constructor
    · exact fun h => .inl h.symm
    · rintro (rfl | ⟨-, hne⟩)
      · rfl
      · exact absurd hk hne
  · rw [find?_eq_some, and_iff_left rfl]
    constructor
    · exact fun h => .inr ⟨h, hk⟩
    · rintro (rfl | ⟨h, -⟩)
      · exact absurd rfl hk
      · exact h

omit [DecidableEq κ] in
/-- No record occurs twice. -/
theorem nodup_records (r : Keyed key) : r.records.Nodup := r.nodup.of_map key

/-- The records after setting some of them one after another are among them. -/
theorem mem_of_mem_foldl_set {xs : List α} (h : y ∈ (xs.foldl set r).records) :
    y ∈ r.records ∨ y ∈ xs := by
  induction xs generalizing r with
  | nil => exact .inl h
  | cons x xs ih =>
    rcases ih h with h | h
    · rcases mem_set.mp h with rfl | ⟨h, -⟩
      · exact .inr List.mem_cons_self
      · exact .inl h
    · exact .inr (List.mem_cons_of_mem _ h)

/-- Where records of one key are one record, none is replaced. -/
theorem mem_foldl_set {xs : List α}
    (hinj : ∀ x, x ∈ r.records ∨ x ∈ xs → ∀ y, y ∈ r.records ∨ y ∈ xs → key x = key y → x = y) :
    y ∈ (xs.foldl set r).records ↔ y ∈ r.records ∨ y ∈ xs := by
  induction xs generalizing r with
  | nil => simp
  | cons x xs ih =>
    have hset {z : α} : z ∈ (r.set x).records ↔ z = x ∨ z ∈ r.records := by
      rw [mem_set]
      constructor
      · rintro (h | ⟨h, -⟩)
        · exact .inl h
        · exact .inr h
      · rintro (h | h)
        · exact .inl h
        · by_cases hk : key z = key x
          · exact .inl (hinj z (.inl h) x (.inr List.mem_cons_self) hk)
          · exact .inr ⟨h, hk⟩
    have hmem {z : α} : z ∈ (r.set x).records ∨ z ∈ xs ↔ z ∈ r.records ∨ z ∈ x :: xs := by
      rw [hset, List.mem_cons]
      tauto
    rw [List.foldl_cons, ih, hmem]
    intro z hz w hw
    exact hinj z (hmem.mp hz) w (hmem.mp hw)

/-- Setting a record commutes with a map, when the map's keys tell it from the same records. -/
theorem records_set_map {β κ' : Type*} [DecidableEq κ'] {key' : β → κ'} {q : Keyed key'}
    {f : α → β} (hq : q.records = r.records.map f)
    (hkey : ∀ y ∈ r.records, key' (f y) = key' (f x) ↔ key y = key x) :
    (q.set (f x)).records = (r.set x).records.map f := by
  by_cases hnew : r.find? (key x) = none
  · have hnew' : q.find? (key' (f x)) = none := by
      rw [find?_eq_none, hq]
      intro z hz
      obtain ⟨y, hy, rfl⟩ := List.mem_map.mp hz
      exact fun h => find?_eq_none.mp hnew y hy ((hkey y hy).mp h)
    -- neither has the key, and both get the record at their ends
    rw [set, set, dif_pos hnew, dif_pos hnew', records_push, records_push, hq, List.map_append,
      List.map_singleton]
  · have hold' : q.find? (key' (f x)) ≠ none := by
      obtain ⟨y, hy⟩ := Option.ne_none_iff_exists'.mp hnew
      obtain ⟨hmem, hyx⟩ := find?_eq_some.mp hy
      intro h
      refine find?_eq_none.mp h (f y) ?_ ((hkey y hmem).mpr hyx)
      rw [hq]
      exact List.mem_map_of_mem hmem
    -- both have it, and the record is replaced where it stands
    rw [set, set, dif_neg hnew, dif_neg hold']
    show q.records.map _ = (r.records.map _).map f
    rw [hq, List.map_map, List.map_map]
    apply List.map_congr_left
    intro y hy
    simp only [Function.comp_apply, hkey y hy]
    split_ifs
    · rfl
    · rfl

end Keyed

end StellarForge.Collections
