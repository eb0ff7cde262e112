import Mathlib.Algebra.GroupWithZero.Nat
import Mathlib.Data.Finset.Card
import TxLens.Proofs.Fee.Memo
/-!
# Threads that share the memory of a schedule

The memory is locked while a thread looks into it and while it stores an answer, but not while it
waits for the schedule. So a call takes one step if the answer is known, and else three, between
which any other thread may take its own: several may find the same answer missing and all ask.
Here every order of such steps is admitted. No step brings in an answer that is not the schedule's
(`Step.faithful`), so none changes what any thread will have worked out (`Step.outcomes`), and no call
is lost (`Step.counted`). Every order comes to an end (`Reaches.add_work_le`, `Reaches.exists_stuck`),
and when no thread has a step left, each has what it would have worked out alone
(`Reaches.threads_of_stuck`).
-/

namespace TxLens

/-! ## Threads -/

inductive Thread (α : Type) where
  /-- Between two calls, or done. -/
  | running (p : Inquiry α)
  /-- The memory did not hold the answer. -/
  | missed (q : Question) (next : q.Answer → Inquiry α)
  /-- The schedule has answered, but the answer is not stored yet. -/
  | answered (q : Question) (a : q.Answer) (next : q.Answer → Inquiry α)

/-- An answer that a call returned. -/
structure Reply where
  question : Question
  answer : question.Answer

namespace Thread

variable {α : Type}

/-- The question of the call that a thread is in. -/
def open? : Thread α → Option Question
  | .running _ => none
  | .missed q _ => some q
  | .answered q _ _ => some q

/-- What the schedule answered is what it always answers. -/
def Honest (inner : FeeLookup Id) : Thread α → Prop
  | .answered q a _ => a = inner.answer q
  | _ => True

/-- What a thread works out if `inner` answers the rest of its questions. -/
def outcome (inner : FeeLookup Id) : Thread α → α
  | .running p => p.run inner
  | .missed q next => (next (inner.answer q)).run inner
  | .answered _ a next => (next a).run inner

/-- The most steps that a thread has left if `inner` answers the rest of its questions. -/
def work (inner : FeeLookup Id) : Thread α → Nat
  | .running p => 3 * p.size inner
  | .missed q next => 3 * (next (inner.answer q)).size inner + 2
  | .answered _ a next => 3 * (next a).size inner + 1

end Thread

/-- Threads with the memory they share, and a record of their calls. -/
structure Pool (α : Type) where
  memo : Memo
  threads : List (Thread α)
  /-- The questions of all calls made, the latest first. -/
  calls : List Question
  /-- What the calls returned, the latest first. -/
  replies : List Reply

namespace Pool

variable {α : Type}

def start (ps : List (Inquiry α)) : Pool α := ⟨Memo.empty, ps.map .running, [], []⟩

/-! ## Steps -/

/-- One thread takes its next step, the others stand still. -/
inductive Step (inner : FeeLookup Id) : Pool α → Pool α → Prop
  /-- The memory holds the answer, and the call returns it. -/
  | hit (memo : Memo) (before after : List (Thread α)) (calls : List Question)
      (replies : List Reply) (q : Question) (a : q.Answer) (next : q.Answer → Inquiry α)
      (known : memo.answer? q = some a) :
      Step inner ⟨memo, before ++ .running (.ask q next) :: after, calls, replies⟩
        ⟨memo, before ++ .running (next a) :: after, q :: calls, ⟨q, a⟩ :: replies⟩
  /-- The memory does not hold the answer. -/
  | miss (memo : Memo) (before after : List (Thread α)) (calls : List Question)
      (replies : List Reply) (q : Question) (next : q.Answer → Inquiry α)
      (unknown : memo.answer? q = none) :
      Step inner ⟨memo, before ++ .running (.ask q next) :: after, calls, replies⟩
        ⟨memo, before ++ .missed q next :: after, q :: calls, replies⟩
  /-- The schedule answers. -/
  | query (memo : Memo) (before after : List (Thread α)) (calls : List Question)
      (replies : List Reply) (q : Question) (next : q.Answer → Inquiry α) :
      Step inner ⟨memo, before ++ .missed q next :: after, calls, replies⟩
        ⟨memo, before ++ .answered q (inner.answer q) next :: after, calls, replies⟩
  /-- The answer is stored, in place of one stored meanwhile, and the call returns it. -/
  | keep (memo : Memo) (before after : List (Thread α)) (calls : List Question)
      (replies : List Reply) (q : Question) (a : q.Answer) (next : q.Answer → Inquiry α) :
      Step inner ⟨memo, before ++ .answered q a next :: after, calls, replies⟩
        ⟨memo.insert q a, before ++ .running (next a) :: after, calls, ⟨q, a⟩ :: replies⟩

/-- The pools that some order of steps leads to, with the number of steps. -/
inductive Reaches (inner : FeeLookup Id) (first : Pool α) : Nat → Pool α → Prop
  | refl : Reaches inner first 0 first
  | tail {n : Nat} {pool pool' : Pool α} (h : Reaches inner first n pool)
      (s : Step inner pool pool') : Reaches inner first (n + 1) pool'

/-- No thread is inside a call. -/
def Quiet (pool : Pool α) : Prop := ∀ t ∈ pool.threads, t.open? = none

/-- No thread has a step left. -/
def Stuck (inner : FeeLookup Id) (pool : Pool α) : Prop := ∀ pool', ¬ Step inner pool pool'

variable {inner : FeeLookup Id} {pool pool' : Pool α}

theorem Reaches.trans {first middle last : Pool α} {m n : Nat} (h : Reaches inner first m middle)
    (h' : Reaches inner middle n last) : Reaches inner first (m + n) last := by
  induction h' with
  | refl => exact h
  | tail _ s ih => exact .tail ih s

/-! ## Changing one thread -/

section
variable {before after : List (Thread α)} {t t' : Thread α}

theorem forall_mem_replace {P : Thread α → Prop} (h : ∀ x ∈ before ++ t :: after, P x)
    (h' : P t') : ∀ x ∈ before ++ t' :: after, P x := by
  obtain ⟨hBefore, hRest⟩ := List.forall_mem_append.1 h
  exact List.forall_mem_append.2
    ⟨hBefore, List.forall_mem_cons.2 ⟨h', (List.forall_mem_cons.1 hRest).2⟩⟩

theorem map_replace {β : Type} {f : Thread α → β} (h : f t' = f t) :
    (before ++ t' :: after).map f = (before ++ t :: after).map f := by
  simp [h]

theorem sum_replace_lt {f : Thread α → Nat} (h : f t' < f t) :
    ((before ++ t' :: after).map f).sum < ((before ++ t :: after).map f).sum := by
  simp only [List.map_append, List.map_cons, List.sum_append, List.sum_cons]
  omega

theorem open_perm_of_same (h : t.open? = t'.open?) :
    ((before ++ t :: after).filterMap Thread.open?).Perm
      ((before ++ t' :: after).filterMap Thread.open?) := by
  simp [List.filterMap_cons, h]

/-- The call that one thread is in counts once among the calls of all. -/
theorem open_perm_of_some {q : Question} (h : t.open? = some q) (h' : t'.open? = none) :
    ((before ++ t :: after).filterMap Thread.open?).Perm
      (q :: (before ++ t' :: after).filterMap Thread.open?) := by
  simp only [List.filterMap_append, List.filterMap_cons, h, h']
  exact List.perm_middle

end

/-! ## Only what the schedule answers -/

/-- Every answer in the pool, stored, returned or on its way, is one that the schedule gives. -/
structure Faithful (inner : FeeLookup Id) (pool : Pool α) : Prop where
  memo : pool.memo.Agrees inner
  honest : ∀ t ∈ pool.threads, t.Honest inner
  replies : ∀ r ∈ pool.replies, r.answer = inner.answer r.question

theorem faithful_start (inner : FeeLookup Id) (ps : List (Inquiry α)) :
    (start ps).Faithful inner where
  memo := Memo.agrees_empty inner
  honest t h := by
    obtain ⟨p, -, rfl⟩ := List.mem_map.1 h
    trivial
  replies r h := absurd h List.not_mem_nil

theorem Step.faithful (s : Step inner pool pool') (h : pool.Faithful inner) :
    pool'.Faithful inner := by
  cases s with
  | hit memo before after calls replies q a next known =>
    have ha : a = inner.answer q := h.memo.answer known
    exact ⟨h.memo, forall_mem_replace h.honest trivial, List.forall_mem_cons.2 ⟨ha, h.replies⟩⟩
  | miss memo before after calls replies q next unknown =>
    exact ⟨h.memo, forall_mem_replace h.honest trivial, h.replies⟩
  | query memo before after calls replies q next =>
    exact ⟨h.memo, forall_mem_replace h.honest rfl, h.replies⟩
  | keep memo before after calls replies q a next =>
    have ha : a = inner.answer q := h.honest _ (List.mem_append_right before List.mem_cons_self)
    exact ⟨ha ▸ h.memo.insert q, forall_mem_replace h.honest trivial,
      List.forall_mem_cons.2 ⟨ha, h.replies⟩⟩

theorem Reaches.faithful {ps : List (Inquiry α)} {n : Nat} (h : Reaches inner (start ps) n pool) :
    pool.Faithful inner := by
  induction h with
  | refl => exact faithful_start inner ps
  | tail _ s ih => exact s.faithful ih

/-- No step changes what a thread will have worked out in the end. -/
theorem Step.outcomes (s : Step inner pool pool') (h : pool.Faithful inner) :
    pool'.threads.map (Thread.outcome inner) = pool.threads.map (Thread.outcome inner) := by
  cases s with
  | hit memo before after calls replies q a next known =>
    refine map_replace ?_
    rw [h.memo.answer known]
    rfl
  | miss memo before after calls replies q next unknown => exact map_replace rfl
  | query memo before after calls replies q next => exact map_replace rfl
  | keep memo before after calls replies q a next => exact map_replace rfl

theorem Reaches.outcomes {ps : List (Inquiry α)} {n : Nat} (h : Reaches inner (start ps) n pool) :
    pool.threads.map (Thread.outcome inner) = ps.map (Inquiry.run inner) := by
  induction h with
  | refl => simp [start, Thread.outcome]
  | tail h s ih => exact (s.outcomes h.faithful).trans ih

/-! ## Every call counted -/

structure Counted (pool : Pool α) : Prop where
  heights_nodup : pool.memo.heights.Nodup
  mem_heights : ∀ height, height ∈ pool.memo.heights ↔
    Question.fees height ∈ pool.replies.map Reply.question
  /-- Every call made has returned or is still under way. -/
  calls : pool.calls.Perm
    (pool.replies.map Reply.question ++ pool.threads.filterMap Thread.open?)

theorem counted_start (ps : List (Inquiry α)) : (start ps).Counted where
  heights_nodup := List.nodup_nil
  mem_heights height := by simp [start, Memo.heights, Memo.empty]
  calls := by simp [start, Thread.open?]

theorem Step.counted (s : Step inner pool pool') (h : pool.Counted) : pool'.Counted := by
  cases s with
  | hit memo before after calls replies q a next known =>
    refine ⟨h.heights_nodup, fun height => ?_, ?_⟩
    · rw [List.map_cons, List.mem_cons, ← h.mem_heights height, iff_or_self]
      rintro rfl
      exact Memo.mem_heights_of_answer? known
    · refine (h.calls.trans (List.Perm.append_left _ ?_)).cons q
      exact open_perm_of_same rfl
  | miss memo before after calls replies q next unknown =>
    refine ⟨h.heights_nodup, h.mem_heights, ?_⟩
    refine (h.calls.cons q).trans (List.perm_middle.symm.trans (List.Perm.append_left _ ?_))
    exact (open_perm_of_some rfl rfl).symm
  | query memo before after calls replies q next =>
    refine ⟨h.heights_nodup, h.mem_heights, h.calls.trans (List.Perm.append_left _ ?_)⟩
    exact open_perm_of_same rfl
  | keep memo before after calls replies q a next =>
    refine ⟨Memo.nodup_heights_insert h.heights_nodup q a, fun height => ?_, ?_⟩
    · rw [Memo.mem_heights_insert_iff, List.map_cons, List.mem_cons, h.mem_heights height]
    · refine h.calls.trans (List.Perm.trans (List.Perm.append_left _ ?_) List.perm_middle)
      exact open_perm_of_some rfl rfl

theorem Reaches.counted {ps : List (Inquiry α)} {n : Nat} (h : Reaches inner (start ps) n pool) :
    pool.Counted := by
  induction h with
  | refl => exact counted_start ps
  | tail _ s ih => exact s.counted ih

theorem Quiet.calls_perm (hq : pool.Quiet) (h : pool.Counted) :
    pool.calls.Perm (pool.replies.map Reply.question) := by
  have hc := h.calls
  rwa [List.filterMap_eq_nil_iff.2 hq, List.append_nil] at hc

/-- As many heights are remembered as were asked about. -/
theorem Quiet.cachedHeights_eq (hq : pool.Quiet) (h : pool.Counted) :
    pool.memo.cachedHeights = (pool.calls.filterMap Question.feesHeight?).toFinset.card := by
  rw [← Memo.length_heights, ← List.toFinset_card_of_nodup h.heights_nodup]
  congr 1
  ext height
  rw [List.mem_toFinset, List.mem_toFinset, h.mem_heights, ← (hq.calls_perm h).mem_iff,
    List.mem_filterMap]
  constructor
  · exact fun hm => ⟨_, hm, rfl⟩
  · rintro ⟨q, hm, hh⟩
    cases q with
    | fees => exact Option.some.inj hh ▸ hm
    | floorPrice => cases hh

/-! ## Every run ends -/

/-- The most steps that all threads together have left. -/
def work (inner : FeeLookup Id) (pool : Pool α) : Nat := (pool.threads.map (Thread.work inner)).sum

theorem Step.work_lt (s : Step inner pool pool') (h : pool.Faithful inner) :
    pool'.work inner < pool.work inner := by
  cases s with
  | hit memo before after calls replies q a next known =>
    refine sum_replace_lt ?_
    rw [h.memo.answer known]
    simp only [Thread.work, Inquiry.size]
    omega
  | miss memo before after calls replies q next unknown =>
    refine sum_replace_lt ?_
    simp only [Thread.work, Inquiry.size]
    omega
  | query memo before after calls replies q next => exact sum_replace_lt (Nat.lt_succ_self _)
  | keep memo before after calls replies q a next => exact sum_replace_lt (Nat.lt_succ_self _)

theorem Reaches.add_work_le {ps : List (Inquiry α)} {n : Nat}
    (h : Reaches inner (start ps) n pool) : n + pool.work inner ≤ (start ps).work inner := by
  induction h with
  | refl => exact (Nat.zero_add _).le
  | tail h s ih =>
    have hLess := s.work_lt h.faithful
    omega

/-- A thread that is not done can take a step, whatever the others do. -/
theorem exists_step {t : Thread α} (ht : t ∈ pool.threads) (hDone : ∀ a, t ≠ .running (.done a)) :
    ∃ pool', Step inner pool pool' := by
  obtain ⟨memo, threads, calls, replies⟩ := pool
  obtain ⟨before, after, rfl⟩ := List.append_of_mem ht
  cases t with
  | running p =>
    cases p with
    | done a => exact absurd rfl (hDone a)
    | ask q next =>
      cases hm : memo.answer? q with
      | some a => exact ⟨_, .hit memo before after calls replies q a next hm⟩
      | none => exact ⟨_, .miss memo before after calls replies q next hm⟩
  | missed q next => exact ⟨_, .query memo before after calls replies q next⟩
  | answered q a next => exact ⟨_, .keep memo before after calls replies q a next⟩

theorem Stuck.done (hs : pool.Stuck inner) {t : Thread α} (ht : t ∈ pool.threads) :
    t = .running (.done (t.outcome inner)) := by
  by_contra hne
  obtain ⟨pool', s⟩ := exists_step ht fun a ha => hne (by rw [ha]; rfl)
  exact hs pool' s

theorem Stuck.quiet (hs : pool.Stuck inner) : pool.Quiet := fun t ht => by
  rw [hs.done ht]
  rfl

/-- Whatever has happened so far, the threads can be led to an end. -/
theorem Reaches.exists_stuck {ps : List (Inquiry α)} {n : Nat}
    (h : Reaches inner (start ps) n pool) :
    ∃ m last, Reaches inner pool m last ∧ last.Stuck inner := by
  induction hw : pool.work inner using Nat.strong_induction_on generalizing n pool with
  | _ w ih =>
    by_cases hs : pool.Stuck inner
    · exact ⟨0, pool, .refl, hs⟩
    · obtain ⟨pool', s⟩ : ∃ pool', Step inner pool pool' := by simpa [Stuck] using hs
      obtain ⟨m, last, hm, hLast⟩ := ih _ (hw ▸ s.work_lt h.faithful) (.tail h s) rfl
      exact ⟨_, last, (Reaches.tail .refl s).trans hm, hLast⟩

theorem Reaches.threads_of_stuck {ps : List (Inquiry α)} {n : Nat}
    (h : Reaches inner (start ps) n pool) (hs : pool.Stuck inner) :
    pool.threads = (ps.map (Inquiry.run inner)).map fun a => .running (.done a) := by
  calc pool.threads
      = pool.threads.map fun t => .running (.done (t.outcome inner)) := by
        rw [← List.map_congr_left fun t ht => hs.done ht]
        exact (List.map_id _).symm
    _ = (pool.threads.map (Thread.outcome inner)).map fun a => .running (.done a) := by
        rw [List.map_map]
        rfl
    _ = (ps.map (Inquiry.run inner)).map fun a => .running (.done a) := congrArg _ h.outcomes

/-! ## One thread after the other -/

section
variable (memo : Memo) (before after : List (Thread α)) (calls : List Question)
  (replies : List Reply)

/-- The steps of one call, taken without a break, do what the look-up that remembers does. -/
theorem exists_reaches_call (q : Question) (next : q.Answer → Inquiry α) :
    ∃ n calls' replies',
      Reaches inner ⟨memo, before ++ .running (.ask q next) :: after, calls, replies⟩ n
      ⟨(((Memo.lookup inner).answer q).run memo).2,
        before ++ .running (next (((Memo.lookup inner).answer q).run memo).1) :: after,
        calls', replies'⟩ := by
  cases hm : memo.answer? q with
  | some a =>
    rw [Memo.run_lookup_answer_of_known hm]
    exact ⟨_, _, _, .tail .refl (.hit memo before after calls replies q a next hm)⟩
  | none =>
    rw [Memo.run_lookup_answer_of_unknown hm]
    exact ⟨_, _, _, .tail (.tail (.tail .refl (.miss memo before after calls replies q next hm))
      (.query ..)) (.keep ..)⟩

/-- What the look-up that remembers gives is what a thread works out while the others stand still. -/
theorem exists_reaches_alone (p : Inquiry α) :
    ∃ n calls' replies', Reaches inner ⟨memo, before ++ .running p :: after, calls, replies⟩ n
      ⟨((p.run (Memo.lookup inner)).run memo).2,
        before ++ .running (.done ((p.run (Memo.lookup inner)).run memo).1) :: after,
        calls', replies'⟩ := by
  induction p generalizing memo calls replies with
  | done a => exact ⟨0, calls, replies, .refl⟩
  | ask q next ih =>
    obtain ⟨m, calls₁, replies₁, hCall⟩ :=
      exists_reaches_call memo before after calls replies q next
    obtain ⟨n, calls₂, replies₂, hNext⟩ := ih _ _ calls₁ replies₁
    rw [Inquiry.run, StateT.run_bind]
    exact ⟨_, _, _, hCall.trans hNext⟩

end

/-- To take inquiries in turn with the look-up that remembers is one of the orders of steps. -/
theorem exists_reaches_inTurn (ps : List (Inquiry α)) (memo : Memo) (before : List (Thread α))
    (calls : List Question) (replies : List Reply) :
    ∃ n calls' replies', Reaches inner ⟨memo, before ++ ps.map .running, calls, replies⟩ n
      ⟨((ps.mapM (Inquiry.run (Memo.lookup inner))).run memo).2,
        before ++ ((ps.mapM (Inquiry.run (Memo.lookup inner))).run memo).1.map
          fun a => .running (.done a),
        calls', replies'⟩ := by
  induction ps generalizing memo before calls replies with
  | nil => exact ⟨0, calls, replies, .refl⟩
  | cons p ps ih =>
    obtain ⟨m, calls₁, replies₁, hFirst⟩ :=
      exists_reaches_alone memo before (ps.map .running) calls replies p
    obtain ⟨n, calls₂, replies₂, hRest⟩ := ih ((p.run (Memo.lookup inner)).run memo).2
      (before ++ [.running (.done ((p.run (Memo.lookup inner)).run memo).1)]) calls₁ replies₁
    rw [List.append_assoc, List.append_assoc] at hRest
    rw [List.mapM_cons, StateT.run_bind]
    exact ⟨_, _, _, hFirst.trans hRest⟩

end Pool

end TxLens
