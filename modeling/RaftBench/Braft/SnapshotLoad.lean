import RaftBench.Braft.Snapshot

/-!
# Loading a damaged snapshot

`on_snapshot_load` reports through its return value whether the node took the snapshot over.  It
clears the map before it opens the file, reads pairs until the stream fails, and returns `0`: the
end of the file, a number that is not there and a file that cannot be opened all look alike.

A load is all or nothing (`AllOrNothing`) when it either takes over a whole file or refuses and
leaves the map alone.  `allOrNothing_iff` says on which files it is: those made of complete lines
with no id twice (`CompleteLines`), and no others.
-/

namespace RaftBench.Braft

open Decimal

/-! ## Complete files -/

/-- A data file of complete lines, each for an id that is not among `seen` and not on an earlier
line. -/
inductive CompleteLines : List Int64 → List Char → Prop where
  | done (seen : List Int64) : CompleteLines seen []
  | line {seen : List Int64} {id value : Int64} {rest : List Char} (hfresh : id ∉ seen)
      (hrest : CompleteLines (id :: seen) rest) :
      CompleteLines seen (snapshotLine (id, value) ++ rest)

/-- The pairs of a complete file, in the order of its lines. -/
lemma CompleteLines.exists_values {seen : List Int64} {text : List Char}
    (h : CompleteLines seen text) :
    ∃ values, text = saveSnapshot ⟨values⟩ ∧ (values.map Prod.fst).Nodup ∧
      ∀ id ∈ seen, id ∉ values.map Prod.fst := by
  induction h with
  | done seen => exact ⟨[], rfl, List.nodup_nil, by simp⟩
  | @line seen id value rest hfresh _ ih =>
      obtain ⟨values, rfl, hnodup, hseen⟩ := ih
      refine ⟨(id, value) :: values, rfl, ?_, ?_⟩
      · exact List.nodup_cons.mpr ⟨hseen id List.mem_cons_self, hnodup⟩
      · intro id' hid' hmem
        rcases List.mem_cons.mp hmem with rfl | hmem
        · exact hfresh hid'
        · exact hseen id' (List.mem_cons_of_mem _ hid') hmem

lemma completeLines_saveSnapshot {values : List (Int64 × Int64)} {seen : List Int64}
    (hnodup : (values.map Prod.fst).Nodup) (hseen : ∀ id ∈ seen, id ∉ values.map Prod.fst) :
    CompleteLines seen (saveSnapshot ⟨values⟩) := by
  induction values generalizing seen with
  | nil => exact .done seen
  | cons p values ih =>
      rw [List.map_cons, List.nodup_cons] at hnodup
      refine .line (fun hmem => hseen p.1 hmem List.mem_cons_self) (ih hnodup.2 ?_)
      intro id hid
      rcases List.mem_cons.mp hid with rfl | hid
      · exact hnodup.1
      · exact fun hmem => hseen id hid (List.mem_cons_of_mem _ hmem)

/-- Pairs with distinct ids are an iteration of some map. -/
lemma exists_enumerates {values : List (Int64 × Int64)} (h : (values.map Prod.fst).Nodup) :
    ∃ map, Enumerates values map := by
  have hkeys : (values.map fun p => (⟨p.1, p.2⟩ : Σ _ : Int64, Int64)).NodupKeys := by
    rw [List.NodupKeys, List.keys, List.map_map]
    exact h
  exact ⟨⟨_, Multiset.coe_nodupKeys.mpr hkeys⟩, rfl⟩

/-- Complete files are the encodings of the maps. -/
lemma completeLines_iff {text : List Char} :
    CompleteLines [] text ↔
      ∃ values map, Enumerates values map ∧ text = saveSnapshot ⟨values⟩ := by
  constructor
  · intro h
    obtain ⟨values, htext, hnodup, -⟩ := h.exists_values
    obtain ⟨map, hmap⟩ := exists_enumerates hnodup
    exact ⟨values, map, hmap, htext⟩
  · rintro ⟨values, map, hmap, rfl⟩
    exact completeLines_saveSnapshot hmap.nodup (by simp)

/-- A complete file is empty or ends with a newline. -/
lemma CompleteLines.getLast? {seen : List Int64} {text : List Char} (h : CompleteLines seen text) :
    text = [] ∨ text.getLast? = some '\n' := by
  induction h with
  | done => exact .inl rfl
  | @line seen id value rest _ _ ih =>
      right
      rcases ih with rfl | hlast
      · rw [List.append_nil, snapshotLine, ← List.cons_append, ← List.append_assoc]
        exact List.getLast?_concat
      · rw [List.getLast?_append, hlast, Option.some_or]

/-! ## The return value -/

/-- The load took over a whole encoding, or it reported an error and changed nothing. -/
def AllOrNothing (self : Atomic) (data : Option (List Char)) : Prop :=
  (∃ values map, Enumerates values map ∧ data = some (saveSnapshot ⟨values⟩) ∧
      self.onSnapshotLoad data = .ok (0, { self with valueMap := map })) ∨
    ∃ rc, rc ≠ 0 ∧ self.onSnapshotLoad data = .ok (rc, self)

/-- A load that is not refused by the leader check returns `0`, whatever the file holds. -/
lemma onSnapshotLoad_zero {self self' : Atomic} {data : Option (List Char)} {rc : ℤ}
    (h : self.onSnapshotLoad data = .ok (rc, self')) : rc = 0 := by
  unfold Atomic.onSnapshotLoad at h
  split_ifs at h
  cases data with
  | none => exact (Prod.mk.inj (Except.ok.inj h)).1.symm
  | some text => exact (Prod.mk.inj (Except.ok.inj h)).1.symm

/-- Since it never reports an error, an all-or-nothing load had a complete file in front of it. -/
lemma AllOrNothing.completeLines {self : Atomic} {data : Option (List Char)}
    (h : AllOrNothing self data) : ∃ text, data = some text ∧ CompleteLines [] text := by
  rcases h with ⟨values, map, hmap, hdata, -⟩ | ⟨rc, hrc, hload⟩
  · exact ⟨_, hdata, completeLines_iff.mpr ⟨values, map, hmap, rfl⟩⟩
  · exact absurd (onSnapshotLoad_zero hload) hrc

/-- **When a load is all or nothing**: exactly when the file is there and holds complete lines
with no id twice. -/
theorem allOrNothing_iff (leaderId : Option String) (previous : ValueMap)
    (data : Option (List Char)) :
    AllOrNothing ⟨-1, leaderId, previous⟩ data ↔
      ∃ text, data = some text ∧ CompleteLines [] text := by
  constructor
  · exact AllOrNothing.completeLines
  · rintro ⟨text, rfl, htext⟩
    obtain ⟨values, map, hmap, rfl⟩ := completeLines_iff.mp htext
    refine .inl ⟨values, map, hmap, rfl, ?_⟩
    have hload := loadPairs_saveSnapshot hmap
    simp only [Atomic.onSnapshotLoad, hload]
    rfl

/-- The file `2 17\n` cut off after its third byte: the node reports success and holds the value
`1` for id `2`. -/
theorem truncated_load_succeeds :
    Atomic.onSnapshotLoad ⟨-1, none, Finmap.singleton 2 17⟩ (some ['2', ' ', '1'])
        = .ok (0, ⟨-1, none, Finmap.singleton 2 1⟩) ∧
      ¬ AllOrNothing ⟨-1, none, Finmap.singleton 2 17⟩ (some ['2', ' ', '1']) := by
  constructor
  · have hid : extract ['2', ' ', '1'] = some (2, [' ', '1']) := by decide
    have hvalue : extract [' ', '1'] = some (1, []) := by decide
    have hload : loadPairs ['2', ' ', '1'] ∅ = Finmap.singleton 2 1 := by
      rw [loadPairs_of_extract hid hvalue]
      exact loadPairs_blank (by simp) _
    simp only [Atomic.onSnapshotLoad, hload]
    rfl
  · intro h
    obtain ⟨text, htext, hlines⟩ := h.completeLines
    obtain rfl := Option.some.inj htext
    rcases hlines.getLast? with hnil | hlast
    · cases hnil
    · cases hlast

end RaftBench.Braft
