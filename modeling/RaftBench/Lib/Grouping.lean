import Mathlib.Data.List.Induction
import Mathlib.Data.List.Perm.Basic

/-!
# Grouping by a key

A dictionary of lists in insertion order, as `setdefault(key, []).append(x)` builds it in a loop.

* `lookup_group` — what a key is mapped to: the values that came with it, in the order they came.
* `nodup_keys_group` — a key has one group.  `mem_group` is both together, for going through the
  items.
* `lookup_filterMap` — looking a key up in a dictionary whose values went through a filter.
* `mapM_eq_ite` — a pass that can fail, written as its condition and its total part.
-/

namespace Grouping

variable {κ α β γ : Type*}

/-! ## Passes that can fail -/

/-- A pass whose steps succeed under a condition. -/
lemma mapM_eq_ite {f : α → Option β} {p : α → Prop} [DecidablePred p] {g : α → β} {l : List α}
    (h : ∀ a ∈ l, f a = if p a then some (g a) else none) :
    l.mapM f = if ∀ a ∈ l, p a then some (l.map g) else none := by
  induction l with
  | nil => simp
  | cons a l ih =>
      obtain ⟨ha, hl⟩ := List.forall_mem_cons.mp h
      rw [List.mapM_cons, ih hl, ha]
      by_cases hp : p a
      · by_cases hall : ∀ b ∈ l, p b
        · rw [if_pos hp, if_pos hall, if_pos (List.forall_mem_cons.mpr ⟨hp, hall⟩)]
          rfl
        · rw [if_pos hp, if_neg hall, if_neg fun h => hall (List.forall_mem_cons.mp h).2]
          rfl
      · rw [if_neg hp, if_neg fun h => hp (List.forall_mem_cons.mp h).1]
        rfl

/-- A pass whose steps all succeed. -/
lemma mapM_eq_some {f : α → Option β} {g : α → β} {l : List α} (h : ∀ a ∈ l, f a = some (g a)) :
    l.mapM f = some (l.map g) := by
  have hite := mapM_eq_ite (p := fun _ => True) fun a ha => (h a ha).trans (if_pos trivial).symm
  rwa [if_pos fun _ _ => trivial] at hite

/-! ## Dictionaries -/

section Lookup

variable [BEq κ] [LawfulBEq κ]

lemma mem_of_lookup {d : List (κ × α)} {k : κ} {a : α} (h : d.lookup k = some a) : (k, a) ∈ d := by
  obtain ⟨l₁, l₂, rfl, -⟩ := List.lookup_eq_some_iff.mp h
  simp

lemma lookup_isSome_iff_mem_keys {d : List (κ × α)} {k : κ} :
    (d.lookup k).isSome ↔ k ∈ d.map Prod.fst := by
  simp only [List.lookup_isSome_iff, beq_iff_eq, List.mem_map]
  exact exists_congr fun e => and_congr_right fun _ => eq_comm

variable [DecidableEq κ]

lemma lookup_cons (k k' : κ) (a : α) (d : List (κ × α)) :
    ((k', a) :: d).lookup k = if k = k' then some a else d.lookup k := by
  rw [List.lookup_cons]
  by_cases h : k = k'
  · simp [h]
  · simp [h, beq_false_of_ne h]

lemma lookup_of_mem {d : List (κ × α)} (hnodup : (d.map Prod.fst).Nodup) {k : κ} {a : α}
    (h : (k, a) ∈ d) : d.lookup k = some a := by
  induction d with
  | nil => simp at h
  | cons e d ih =>
      obtain ⟨l, b⟩ := e
      rw [List.map_cons, List.nodup_cons] at hnodup
      rw [lookup_cons]
      rcases List.mem_cons.mp h with heq | hmem
      · rw [Prod.mk.injEq] at heq
        rw [if_pos heq.1, heq.2]
      · rw [if_neg, ih hnodup.2 hmem]
        rintro rfl
        exact hnodup.1 (List.mem_map.mpr ⟨(k, a), hmem, rfl⟩)

/-- The values go through a function that may drop them. -/
lemma lookup_filterMap (f : κ → α → Option β) {d : List (κ × α)}
    (hnodup : (d.map Prod.fst).Nodup) (k : κ) :
    (d.filterMap fun e => (f e.1 e.2).map (e.1, ·)).lookup k = (d.lookup k).bind (f k) := by
  induction d with
  | nil => rfl
  | cons e d ih =>
      obtain ⟨l, a⟩ := e
      rw [List.map_cons, List.nodup_cons] at hnodup
      have hrest := ih hnodup.2
      rw [List.filterMap_cons, lookup_cons]
      by_cases hk : k = l
      · subst hk
        have hnone : d.lookup k = none := by
          rw [← Option.not_isSome_iff_eq_none, lookup_isSome_iff_mem_keys]
          exact hnodup.1
        rw [if_pos rfl]
        cases hf : f k a with
        | none => simpa [hf, hnone] using hrest
        | some b => simp [hf]
      · rw [if_neg hk]
        cases hf : f l a with
        | none => simpa [hf] using hrest
        | some b => simpa [hf, lookup_cons, hk] using hrest

lemma lookup_map_snd (f : α → β) (d : List (κ × α)) (k : κ) :
    (d.map fun e => (e.1, f e.2)).lookup k = (d.lookup k).map f := by
  induction d with
  | nil => rfl
  | cons e d ih =>
      obtain ⟨l, a⟩ := e
      rw [List.map_cons, lookup_cons, lookup_cons]
      split_ifs
      · rfl
      · exact ih

/-- The values are computed anew from the keys. -/
lemma lookup_map_fst (f : κ → β) (d : List (κ × α)) (k : κ) :
    (d.map fun e => (e.1, f e.1)).lookup k
      = if k ∈ d.map Prod.fst then some (f k) else none := by
  induction d with
  | nil => rfl
  | cons e d ih =>
      rw [List.map_cons, lookup_cons, ih, List.map_cons]
      by_cases hk : k = e.1
      · rw [if_pos hk, if_pos (List.mem_cons.mpr (.inl hk)), hk]
      · rw [if_neg hk]
        refine if_congr ?_ rfl rfl
        rw [List.mem_cons, or_iff_right hk]

end Lookup

/-! ## Groups -/

section Group

variable [DecidableEq κ]

/-- `d.setdefault(k, []).append(x)`. -/
def append (k : κ) (x : α) : List (κ × List α) → List (κ × List α)
  | [] => [(k, [x])]
  | (k', xs) :: d => if k' = k then (k', xs ++ [x]) :: d else (k', xs) :: append k x d

/-- The dictionary a loop over pairs of a key and a value builds. -/
def group (l : List (κ × α)) : List (κ × List α) := l.foldl (fun d e => append e.1 e.2 d) []

/-- The values that come with a key. -/
def values (k : κ) (l : List (κ × α)) : List α := (l.filter fun e => e.1 = k).map Prod.snd

lemma group_concat (l : List (κ × α)) (e : κ × α) :
    group (l ++ [e]) = append e.1 e.2 (group l) := by
  rw [group, List.foldl_append]
  rfl

lemma values_concat (k : κ) (l : List (κ × α)) (e : κ × α) :
    values k (l ++ [e]) = if e.1 = k then values k l ++ [e.2] else values k l := by
  rw [values, List.filter_append, List.map_append, ← values]
  split_ifs with h <;> simp [h]

lemma keys_append (k : κ) (x : α) (d : List (κ × List α)) :
    (append k x d).map Prod.fst
      = if k ∈ d.map Prod.fst then d.map Prod.fst else d.map Prod.fst ++ [k] := by
  induction d with
  | nil => simp [append]
  | cons e d ih =>
      obtain ⟨l, xs⟩ := e
      rw [append]
      by_cases hl : l = k
      · subst hl
        simp
      · rw [if_neg hl, List.map_cons, ih]
        by_cases hk : k ∈ d.map Prod.fst
        · rw [if_pos hk, if_pos (by simpa using .inr (by simpa using hk))]
          rfl
        · rw [if_neg hk, if_neg]
          · rfl
          · rw [List.map_cons, List.mem_cons, not_or]
            exact ⟨Ne.symm hl, hk⟩

theorem nodup_keys_group (l : List (κ × α)) : ((group l).map Prod.fst).Nodup := by
  induction l using List.reverseRecOn with
  | nil => exact List.nodup_nil
  | append_singleton l e ih =>
      rw [group_concat, keys_append]
      split_ifs with hk
      · exact ih
      · rw [List.nodup_append]
        refine ⟨ih, by simp, ?_⟩
        rintro a ha b hb rfl
        rw [List.mem_singleton] at hb
        exact hk (hb ▸ ha)

lemma mem_values {l : List (κ × α)} {k : κ} {a : α} : a ∈ values k l ↔ (k, a) ∈ l := by
  simp only [values, List.mem_map, List.mem_filter, decide_eq_true_eq]
  constructor
  · rintro ⟨e, ⟨he, rfl⟩, rfl⟩
    exact he
  · intro h
    exact ⟨(k, a), ⟨h, rfl⟩, rfl⟩

lemma values_perm {l l' : List (κ × α)} (h : l.Perm l') (k : κ) :
    (values k l).Perm (values k l') := (h.filter _).map _

variable [BEq κ] [LawfulBEq κ]

lemma lookup_append (k k' : κ) (x : α) (d : List (κ × List α)) :
    (append k x d).lookup k'
      = if k' = k then some ((d.lookup k).getD [] ++ [x]) else d.lookup k' := by
  induction d with
  | nil =>
      rw [append, lookup_cons]
      rfl
  | cons e d ih =>
      obtain ⟨l, xs⟩ := e
      rw [append, lookup_cons, lookup_cons]
      by_cases hl : l = k
      · subst hl
        rw [if_pos rfl, if_pos rfl, lookup_cons]
        split_ifs <;> rfl
      · rw [if_neg hl, if_neg (Ne.symm hl), lookup_cons, ih]
        by_cases hk : k' = k
        · subst hk
          simp only [if_true, if_neg (Ne.symm hl)]
        · rw [if_neg hk, if_neg hk]

/-- **A key is mapped to the values that came with it.** -/
theorem lookup_group (l : List (κ × α)) (k : κ) :
    (group l).lookup k = if values k l = [] then none else some (values k l) := by
  induction l using List.reverseRecOn with
  | nil => rfl
  | append_singleton l e ih =>
      rw [group_concat, lookup_append, values_concat]
      by_cases hk : k = e.1
      · subst hk
        have hne : values e.1 l ++ [e.2] ≠ [] := List.concat_ne_nil _ _
        rw [if_pos rfl, if_pos rfl, if_neg hne, ih]
        split_ifs with hnil
        · rw [hnil]
          rfl
        · rfl
      · rw [if_neg hk, if_neg (Ne.symm hk), ih]

theorem mem_group {l : List (κ × α)} {k : κ} {xs : List α} :
    (k, xs) ∈ group l ↔ xs = values k l ∧ xs ≠ [] := by
  constructor
  · intro h
    have hlookup := lookup_of_mem (nodup_keys_group l) h
    rw [lookup_group] at hlookup
    split_ifs at hlookup with hnil
    obtain rfl := Option.some.inj hlookup
    exact ⟨rfl, hnil⟩
  · rintro ⟨rfl, hne⟩
    refine mem_of_lookup ?_
    rw [lookup_group, if_neg hne]

end Group

end Grouping
