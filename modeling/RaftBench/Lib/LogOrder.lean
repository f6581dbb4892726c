import Mathlib.Data.List.Induction
import RaftBench.Lib.Linearizability

/-!
# Linearizing a log

An object whose updates go through one log, and whose reads are answered from the state that a
prefix of the log leaves behind.  The updates are linearized in the order of the log.  A read that
was answered from the first `n` updates is put behind them, and behind the reads that are there
already; that is in time if all calls that were answered before the read began are among these.

* `List.takeCount` — the part of an order up to its `n`-th update.
* `LogLinearizes` — an order that explains a history and whose updates are the log.  It keeps, for
  the reads in progress, how much of the log there was when they began.
* `LogLinearizes.invoke`, `LogLinearizes.watch`, `LogLinearizes.update`,
  `LogLinearizes.respond_update` and `LogLinearizes.respond_read` — what can happen to it.
-/

namespace List

variable {α : Type*} (p : α → Bool)

/-- The longest prefix in which at most `n` elements have the property. -/
def takeCount : ℕ → List α → List α
  | _, [] => []
  | 0, x :: l => if p x then [] else x :: takeCount 0 l
  | n + 1, x :: l => x :: if p x then takeCount n l else takeCount (n + 1) l

variable {p} {a x : α}

lemma takeCount_nil (n : ℕ) : takeCount p n [] = [] := by
  cases n <;> rfl

lemma takeCount_cons_neg (hx : p x = false) (n : ℕ) (l : List α) :
    takeCount p n (x :: l) = x :: takeCount p n l := by
  have hne : ¬p x = true := by simp [hx]
  cases n with
  | zero => exact if_neg hne
  | succ n => exact congrArg (cons x) (if_neg hne)

lemma takeCount_cons_zero (hx : p x = true) (l : List α) : takeCount p 0 (x :: l) = [] :=
  if_pos hx

lemma takeCount_cons_succ (hx : p x = true) (n : ℕ) (l : List α) :
    takeCount p (n + 1) (x :: l) = x :: takeCount p n l :=
  congrArg (cons x) (if_pos hx)

lemma takeCount_isPrefix (n : ℕ) (l : List α) : takeCount p n l <+: l := by
  induction l generalizing n with
  | nil => exact prefix_rfl
  | cons x l ih =>
      cases hx : p x with
      | false =>
          rw [takeCount_cons_neg hx, prefix_cons_inj]
          exact ih n
      | true =>
          cases n with
          | zero =>
              rw [takeCount_cons_zero hx]
              exact nil_prefix
          | succ n =>
              rw [takeCount_cons_succ hx, prefix_cons_inj]
              exact ih n

lemma filter_takeCount (n : ℕ) (l : List α) : (takeCount p n l).filter p = (l.filter p).take n := by
  induction l generalizing n with
  | nil => simp [takeCount_nil]
  | cons x l ih =>
      cases hx : p x with
      | false => simp [takeCount_cons_neg hx, hx, ih]
      | true =>
          cases n with
          | zero => simp [takeCount_cons_zero hx]
          | succ n => simp [takeCount_cons_succ hx, hx, ih]

/-- An element is in it if not too many elements up to it have the property. -/
lemma mem_takeCount {n : ℕ} {l : List α} : a ∈ takeCount p n l ↔
    ∃ front back, l = front ++ a :: back ∧ (front ++ [a]).countP p ≤ n := by
  induction l generalizing n with
  | nil => simp [takeCount_nil]
  | cons x l ih =>
      -- the element is the first one, or further back
      have hsplit : (∃ front back, x :: l = front ++ a :: back ∧ (front ++ [a]).countP p ≤ n) ↔
          (a = x ∧ [x].countP p ≤ n) ∨
            ∃ front back, l = front ++ a :: back ∧ (x :: (front ++ [a])).countP p ≤ n := by
        constructor
        · rintro ⟨front, back, heq, hcount⟩
          cases front with
          | nil =>
              obtain ⟨rfl, rfl⟩ := cons.inj heq
              exact Or.inl ⟨rfl, hcount⟩
          | cons y front =>
              obtain ⟨rfl, rfl⟩ := cons.inj heq
              exact Or.inr ⟨front, back, rfl, hcount⟩
        · rintro (⟨rfl, hcount⟩ | ⟨front, back, rfl, hcount⟩)
          · exact ⟨[], l, rfl, hcount⟩
          · exact ⟨x :: front, back, rfl, hcount⟩
      rw [hsplit]
      cases hx : p x with
      | false => simp [takeCount_cons_neg hx, ih, hx]
      | true =>
          cases n with
          | zero => simp [takeCount_cons_zero hx, hx]
          | succ n => simp [takeCount_cons_succ hx, ih, hx]

lemma mem_takeCount_of_le {n : ℕ} {l : List α} (ha : a ∈ l) (h : (l.filter p).length ≤ n) :
    a ∈ takeCount p n l := by
  obtain ⟨front, back, rfl⟩ := append_of_mem ha
  rw [mem_takeCount]
  refine ⟨front, back, rfl, le_trans ?_ h⟩
  have hsplit : front ++ a :: back = (front ++ [a]) ++ back := by simp
  rw [hsplit, ← countP_eq_length_filter]
  exact (sublist_append_left _ _).countP_le

lemma mem_takeCount_mono {m n : ℕ} {l : List α} (hmn : m ≤ n) (h : a ∈ takeCount p m l) :
    a ∈ takeCount p n l := by
  rw [mem_takeCount] at h ⊢
  obtain ⟨front, back, hl, hcount⟩ := h
  exact ⟨front, back, hl, hcount.trans hmn⟩

lemma mem_takeCount_append {n : ℕ} {l : List α} (l' : List α) (h : a ∈ takeCount p n l) :
    a ∈ takeCount p n (l ++ l') := by
  rw [mem_takeCount] at h ⊢
  obtain ⟨front, back, rfl, hcount⟩ := h
  exact ⟨front, back ++ l', by simp, hcount⟩

/-- An element without the property takes no room. -/
lemma mem_takeCount_insert {n : ℕ} {front back : List α} (hx : p x = false)
    (h : a ∈ takeCount p n (front ++ back)) : a ∈ takeCount p n (front ++ x :: back) := by
  rw [mem_takeCount] at h ⊢
  obtain ⟨f, b, heq, hcount⟩ := h
  rcases append_eq_append_iff.mp heq with ⟨c, rfl, rfl⟩ | ⟨c, rfl, hc⟩
  · refine ⟨front ++ x :: c, b, by simp, ?_⟩
    simpa [hx] using hcount
  · cases c with
    | nil =>
        obtain rfl : a :: b = back := hc
        refine ⟨f ++ [x], b, by simp, ?_⟩
        simpa [hx] using hcount
    | cons y c =>
        obtain ⟨rfl, rfl⟩ := cons.inj hc
        exact ⟨f, c ++ x :: back, by simp, hcount⟩

/-- Where an element with the property stands in the whole list. -/
lemma exists_getElem?_of_filter {k : ℕ} {l : List α} (h : (l.filter p)[k]? = some a) :
    ∃ i, l[i]? = some a ∧ (l.take i).filter p = (l.filter p).take k := by
  induction l generalizing k with
  | nil => cases h
  | cons x l ih =>
      cases hx : p x with
      | false =>
          rw [filter_cons_of_neg (by simp [hx])] at h ⊢
          obtain ⟨i, hi, htake⟩ := ih h
          refine ⟨i + 1, hi, ?_⟩
          rw [take_succ_cons, filter_cons_of_neg (by simp [hx]), htake]
      | true =>
          rw [filter_cons_of_pos hx] at h ⊢
          cases k with
          | zero => exact ⟨0, h, rfl⟩
          | succ k =>
              obtain ⟨i, hi, htake⟩ := ih h
              refine ⟨i + 1, hi, ?_⟩
              rw [take_succ_cons, filter_cons_of_pos hx, take_succ_cons, htake]

end List

namespace Linearizability

variable {σ κ ι ο : Type*} {obj : SeqObject σ ι ο} {isRead : ι → Bool}

/-- Reads do not change the state. -/
def Keeps (obj : SeqObject σ ι ο) (isRead : ι → Bool) : Prop :=
  ∀ op, isRead op = true → ∀ s, (obj.act s op).1 = s

/-- The call is an update. -/
def isUpdate (isRead : ι → Bool) (call : κ × ι) : Bool := !isRead call.2

/-- What reads leave out of an order does not matter to the state. -/
lemma Keeps.after_filter (hkeep : Keeps obj isRead) (calls : List (κ × ι)) :
    obj.after ((calls.filter (isUpdate isRead)).map Prod.snd) = obj.after (calls.map Prod.snd) := by
  induction calls using List.reverseRecOn with
  | nil => rfl
  | append_singleton calls call ih =>
      rw [List.filter_append, List.map_append, List.map_append, List.map_singleton, obj.after_concat,
        ← ih]
      cases hread : isRead call.2 with
      | false => simp [isUpdate, hread, obj.after_concat]
      | true => simp [isUpdate, hread, hkeep call.2 hread]

/-- The order explains the history, and its updates are the log.  A read stands in it from its
answer on.  For the calls in `seen` it is known how much of the log there was at some moment after
they began: whatever was answered before they began stands no further back. -/
structure LogLinearizes (obj : SeqObject σ ι ο) (isRead : ι → Bool) (log : List (κ × ι))
    (seen : List (κ × ℕ)) (order : List (κ × ι)) (history : List (Action κ ι ο)) : Prop
    extends Linearizes obj order history where
  updates : order.filter (isUpdate isRead) = log
  unique : ∀ c op op', .invoke c op ∈ history → .invoke c op' ∈ history → op = op'
  begun : ∀ c m, (c, m) ∈ seen → ∃ op, .invoke c op ∈ history
  returned : ∀ c op, (c, op) ∈ order → isRead op = true → ∃ r, .respond c r ∈ history
  ahead : ∀ c m, (c, m) ∈ seen → ∀ a r op,
    [Action.respond a r, Action.invoke c op].Sublist history →
      a ∈ (order.takeCount (isUpdate isRead) m).map Prod.fst

namespace LogLinearizes

variable {log order : List (κ × ι)} {seen : List (κ × ℕ)} {history : List (Action κ ι ο)}

lemma nil : LogLinearizes (κ := κ) obj isRead [] [] [] [] where
  toLinearizes := Linearizes.nil
  updates := rfl
  unique := by simp
  begun := by simp
  returned := by simp
  ahead := by simp

/-- A call begins. -/
lemma invoke (h : LogLinearizes obj isRead log seen order history) {c : κ} (op : ι)
    (hfresh : ∀ op', .invoke c op' ∉ history) :
    LogLinearizes obj isRead log seen order (history ++ [.invoke c op]) where
  toLinearizes := by
    refine h.toLinearizes.invoke op fun hmem => ?_
    obtain ⟨⟨_, op'⟩, hcall, rfl⟩ := List.mem_map.mp hmem
    exact hfresh op' (h.invoked _ op' hcall)
  updates := h.updates
  unique c' op₁ op₂ h₁ h₂ := by
    rw [List.mem_append, List.mem_singleton] at h₁ h₂
    rcases h₁ with h₁ | h₁ <;> rcases h₂ with h₂ | h₂
    · exact h.unique c' op₁ op₂ h₁ h₂
    · cases h₂
      exact absurd h₁ (hfresh op₁)
    · cases h₁
      exact absurd h₂ (hfresh op₂)
    · cases h₁
      cases h₂
      rfl
  begun c' m hseen := by
    obtain ⟨op', hop'⟩ := h.begun c' m hseen
    exact ⟨op', List.mem_append_left _ hop'⟩
  returned c' op' hmem hread := by
    obtain ⟨r, hr⟩ := h.returned c' op' hmem hread
    exact ⟨r, List.mem_append_left _ hr⟩
  ahead c' m hseen a r op' hsub := by
    rcases Linearizes.sublist_concat hsub with hsub | hlast
    · exact h.ahead c' m hseen a r op' hsub
    · -- the new call is not one of those in progress
      cases hlast
      obtain ⟨op', hop'⟩ := h.begun c m hseen
      exact absurd hop' (hfresh op')

/-- From here on it is known how much of the log there was. -/
lemma watch (h : LogLinearizes obj isRead log seen order history) {c : κ} {op : ι}
    (hbegun : .invoke c op ∈ history) :
    LogLinearizes obj isRead log (seen ++ [(c, log.length)]) order history :=
  { h with
    begun := fun c' m hseen => by
      rcases List.mem_append.mp hseen with hseen | hseen
      · exact h.begun c' m hseen
      · cases List.mem_singleton.mp hseen
        exact ⟨op, hbegun⟩
    ahead := fun c' m hseen a r op' hsub => by
      rcases List.mem_append.mp hseen with hseen | hseen
      · exact h.ahead c' m hseen a r op' hsub
      · cases List.mem_singleton.mp hseen
        obtain ⟨i, hi, -⟩ := h.answered a r (hsub.mem (by simp))
        obtain ⟨call, hcall, rfl⟩ := List.mem_map.mp (List.mem_of_getElem? hi)
        exact List.mem_map_of_mem (List.mem_takeCount_of_le hcall (by rw [h.updates])) }

/-- An update gets into the log. -/
lemma update (h : LogLinearizes obj isRead log seen order history) {c : κ} {op : ι}
    (hnew : c ∉ log.map Prod.fst) (hbegun : .invoke c op ∈ history) (hop : isRead op = false) :
    LogLinearizes obj isRead (log ++ [(c, op)]) seen (order ++ [(c, op)]) history := by
  have hplace : c ∉ order.map Prod.fst := by
    intro hmem
    obtain ⟨⟨c, op'⟩, hcall, rfl⟩ := List.mem_map.mp hmem
    obtain rfl : op' = op := h.unique c op' op (h.invoked c op' hcall) hbegun
    have hlog : (c, op') ∈ log := by
      rw [← h.updates, List.mem_filter]
      exact ⟨hcall, by simp [isUpdate, hop]⟩
    exact hnew (List.mem_map_of_mem hlog)
  have hopen : ∀ r, .respond c r ∉ history := by
    intro r hr
    obtain ⟨i, hi, -⟩ := h.answered c r hr
    exact hplace (List.mem_of_getElem? hi)
  refine { h with
    toLinearizes := h.toLinearizes.append hplace hbegun hopen
    updates := ?_, returned := ?_, ahead := ?_ }
  · rw [List.filter_append, h.updates]
    simp [isUpdate, hop]
  · intro c' op' hmem hread
    rcases List.mem_append.mp hmem with hmem | hmem
    · exact h.returned c' op' hmem hread
    · cases List.mem_singleton.mp hmem
      rw [hop] at hread
      cases hread
  · intro c' m hseen a r op' hsub
    obtain ⟨call, hcall, rfl⟩ := List.mem_map.mp (h.ahead c' m hseen a r op' hsub)
    exact List.mem_map_of_mem (List.mem_takeCount_append _ hcall)

/-- A call is answered, in an order that may have got a place for it. -/
lemma respond (h : LogLinearizes obj isRead log seen order history) {c : κ} {r : ο}
    {order' : List (κ × ι)} (hlin : Linearizes obj order' (history ++ [.respond c r]))
    (hupdates : order'.filter (isUpdate isRead) = log)
    (hplace : ∀ call ∈ order', call ∈ order ∨ call.1 = c)
    (hahead : ∀ m, ∀ call ∈ order.takeCount (isUpdate isRead) m,
      call ∈ order'.takeCount (isUpdate isRead) m) :
    LogLinearizes obj isRead log seen order' (history ++ [.respond c r]) where
  toLinearizes := hlin
  updates := hupdates
  unique c' op₁ op₂ h₁ h₂ := h.unique c' op₁ op₂ (by simpa using h₁) (by simpa using h₂)
  begun c' m hseen := by
    obtain ⟨op', hop'⟩ := h.begun c' m hseen
    exact ⟨op', List.mem_append_left _ hop'⟩
  returned c' op' hmem hread := by
    rcases hplace (c', op') hmem with hmem | rfl
    · obtain ⟨r', hr'⟩ := h.returned c' op' hmem hread
      exact ⟨r', List.mem_append_left _ hr'⟩
    · exact ⟨r, by simp⟩
  ahead c' m hseen a r' op' hsub := by
    rcases Linearizes.sublist_concat hsub with hsub | hlast
    · obtain ⟨call, hcall, rfl⟩ := List.mem_map.mp (h.ahead c' m hseen a r' op' hsub)
      exact List.mem_map_of_mem (hahead m call hcall)
    · cases hlast

/-- **An update is answered** as its place in the log says. -/
lemma respond_update (hkeep : Keeps obj isRead)
    (h : LogLinearizes obj isRead log seen order history) {c : κ} {r : ο} {k : ℕ}
    (hc : (log.map Prod.fst)[k]? = some c) (hr : obj.answer (log.map Prod.snd) k = some r) :
    LogLinearizes obj isRead log seen order (history ++ [.respond c r]) := by
  rw [List.getElem?_map] at hc
  obtain ⟨⟨c, op⟩, hcall, rfl⟩ := Option.map_eq_some_iff.mp hc
  have hfound := hcall
  rw [← h.updates] at hfound
  obtain ⟨i, hi, htake⟩ := List.exists_getElem?_of_filter hfound
  rw [h.updates] at htake
  refine h.respond (h.toLinearizes.respond (i := i) ?_ ?_) h.updates (fun _ => Or.inl)
    fun _ _ hmem => hmem
  · rw [List.getElem?_map, hi]
    rfl
  · -- the reads ahead of it do not matter
    rw [SeqObject.answer, List.getElem?_map, hi, ← List.map_take, ← hkeep.after_filter, htake]
    rw [SeqObject.answer, List.getElem?_map, hcall, ← List.map_take] at hr
    exact hr

/-- **A read is answered** from the state after the first `n` updates, where `n` is at least what
there was after it began. -/
lemma respond_read (hkeep : Keeps obj isRead)
    (h : LogLinearizes obj isRead log seen order history) {c : κ} {op : ι} {m n : ℕ}
    (hseen : (c, m) ∈ seen) (hbegun : .invoke c op ∈ history) (hread : isRead op = true)
    (hopen : ∀ r, .respond c r ∉ history) (hmn : m ≤ n) :
    ∃ order', LogLinearizes obj isRead log seen order' (history ++
      [.respond c (obj.act (obj.after ((log.take n).map Prod.snd)) op).2]) := by
  have hplace : c ∉ order.map Prod.fst := by
    intro hmem
    obtain ⟨⟨c, op'⟩, hcall, rfl⟩ := List.mem_map.mp hmem
    obtain rfl : op' = op := h.unique c op' op (h.invoked c op' hcall) hbegun
    obtain ⟨r, hr⟩ := h.returned c op' hcall hread
    exact hopen r hr
  -- the order in two parts: up to the `n`-th update, and the rest
  obtain ⟨back, hsplit⟩ := List.takeCount_isPrefix (p := isUpdate isRead) n order
  have hfilter := List.filter_takeCount (p := isUpdate isRead) n order
  have hwithin := fun call => List.mem_takeCount_mono (p := isUpdate isRead) (a := call)
    (l := order) hmn
  rw [h.updates] at hfilter
  generalize order.takeCount (isUpdate isRead) n = front at hsplit hfilter hwithin
  subst hsplit
  have hnodup := h.nodup
  rw [List.map_append] at hnodup
  have hback : ∀ a ∈ back.map Prod.fst, ∀ r op',
      ¬ [Action.respond a r, Action.invoke c op'].Sublist history := by
    intro a ha r op' hsub
    obtain ⟨call, hcall, rfl⟩ := List.mem_map.mp (h.ahead c m hseen a r op' hsub)
    exact (List.disjoint_of_nodup_append hnodup) (List.mem_map_of_mem (hwithin call hcall)) ha
  have hinsert := h.toLinearizes.insert hplace hbegun hopen (Or.inr (hkeep op hread)) hback
  refine ⟨front ++ (c, op) :: back,
    h.respond (hinsert.respond (i := front.length) ?_ ?_) ?_ ?_ ?_⟩
  · simp
  · rw [SeqObject.answer, ← hfilter, hkeep.after_filter]
    simp
  · rw [← h.updates]
    simp [isUpdate, hread]
  · intro call hcall
    rcases List.mem_append.mp hcall with hcall | hcall
    · exact Or.inl (List.mem_append_left _ hcall)
    · rcases List.mem_cons.mp hcall with rfl | hcall
      · exact Or.inr rfl
      · exact Or.inl (List.mem_append_right _ hcall)
  · exact fun m' call hcall => List.mem_takeCount_insert (by simp [isUpdate, hread]) hcall

end LogLinearizes

end Linearizability
