import TxLens.Proofs.Fee.Interleaving
import TxLens.Summary
/-!
# Batches

The transactions of a batch are summarised at the same time, each by a thread of its own, and the
threads share what they remember of the fee schedule. Whatever the order of their steps, each summary
is the one of its transaction alone, and what is remembered is what the schedule says
(`ofBatch_interleaved`). Batches that follow one another are one batch some of whose threads begin
late.
-/

namespace TxLens

namespace Summary

variable (r : Registry SignerRule) (c : Config)

/-! ## One transaction as an inquiry -/

theorem run_ofOutcome {n : Type → Type} [Monad n] [LawfulMonad n] (l : FeeLookup n) (o : Outcome) :
    (ofOutcome r c Inquiry.lookup o).run l = ofOutcome r c l o := by
  unfold ofOutcome
  cases signersOfMessages r o with
  | error f => rfl
  | ok signers =>
    rw [Inquiry.run_bind, Surcharge.run_identify]
    refine bind_congr fun identified => ?_
    cases identified with
    | error f => rfl
    | ok surcharges => simp [run_resolveFee]

/-- A summary takes at most three questions, one of them about surcharges. -/
theorem size_ofOutcome (inner : FeeLookup Id) (o : Outcome) :
    (ofOutcome r c Inquiry.lookup o).size inner ≤ 3 := by
  unfold ofOutcome
  cases signersOfMessages r o with
  | error f => simp
  | ok signers =>
    have hIdentify := Surcharge.size_identify inner o o.height
    rw [Inquiry.size_bind]
    cases (Surcharge.identify Inquiry.lookup o o.height).run inner with
    | error f => exact hIdentify.trans (by decide)
    | ok surcharges =>
      have hResolve := size_resolveFee inner c.fees o !surcharges.isEmpty
      simp only [Inquiry.size_bind, Inquiry.size_pure]
      omega

/-! ## One thread for each transaction -/

/-- The threads that summarise a batch, before their first steps. -/
def threads (os : List Outcome) : Pool (Except Fault Summary) :=
  .start (os.map (ofOutcome r c Inquiry.lookup))

theorem work_threads_le (inner : FeeLookup Id) (os : List Outcome) :
    (threads r c os).work inner ≤ 9 * os.length := by
  induction os with
  | nil => exact Nat.le_refl 0
  | cons o os ih =>
    have hSize := size_ofOutcome r c inner o
    simp only [threads, Pool.start, Pool.work, List.map_cons, List.sum_cons, List.length_cons,
      Thread.work] at ih ⊢
    omega

/-- The summaries of a batch taken in turn, and what is remembered in the end. -/
def inTurn (inner : FeeLookup Id) (os : List Outcome) : List (Except Fault Summary) × Memo :=
  Id.run ((os.mapM (ofOutcome r c (Memo.lookup inner))).run Memo.empty)

theorem exists_reaches_inTurn (inner : FeeLookup Id) (os : List Outcome) :
    ∃ n pool, Pool.Reaches inner (threads r c os) n pool ∧ pool.memo = (inTurn r c inner os).2 ∧
      pool.threads = (inTurn r c inner os).1.map fun x => .running (.done x) := by
  have hTurn : (os.map (ofOutcome r c Inquiry.lookup)).mapM (Inquiry.run (Memo.lookup inner)) =
      os.mapM (ofOutcome r c (Memo.lookup inner)) := by
    rw [List.mapM_map]
    exact congrArg os.mapM (funext fun o => run_ofOutcome r c (Memo.lookup inner) o)
  obtain ⟨n, calls, replies, h⟩ := Pool.exists_reaches_inTurn
    (os.map (ofOutcome r c Inquiry.lookup)) Memo.empty [] [] []
  rw [hTurn] at h
  exact ⟨n, _, h, rfl, rfl⟩

theorem map_run_ofOutcome (inner : FeeLookup Id) (os : List Outcome) :
    (os.map (ofOutcome r c Inquiry.lookup)).map (Inquiry.run inner) =
      os.map fun o => (ofOutcome r c inner o).run := by
  rw [List.map_map]
  exact List.map_congr_left fun o _ => run_ofOutcome r c inner o

theorem inTurn_eq_map (inner : FeeLookup Id) (os : List Outcome) :
    (inTurn r c inner os).1 = os.map fun o => (ofOutcome r c inner o).run := by
  obtain ⟨n, pool, h, -, hThreads⟩ := exists_reaches_inTurn r c inner os
  calc (inTurn r c inner os).1
      = ((inTurn r c inner os).1.map fun x => .running (.done x)).map (Thread.outcome inner) := by
        rw [List.map_map]
        exact (List.map_id _).symm
    _ = pool.threads.map (Thread.outcome inner) := by rw [hThreads]
    _ = (os.map (ofOutcome r c Inquiry.lookup)).map (Inquiry.run inner) := h.outcomes
    _ = os.map fun o => (ofOutcome r c inner o).run := map_run_ofOutcome r c inner os

/-! ## Whatever the order -/

/-- **A batch gives what its transactions give alone.** At every moment of every order of steps, the
calls have returned what the schedule answers, and what is remembered is what it answers too. While no
call is under way, every call has returned, and as many heights are remembered as were asked about.
Every order comes to an end, after at most nine steps for each transaction, and then the threads hold
the results of the transactions alone, in their order. Taking the transactions in turn is one of the
orders. -/
theorem ofBatch_interleaved (inner : FeeLookup Id) (os : List Outcome) :
    (∀ n pool, Pool.Reaches inner (threads r c os) n pool →
      (∀ reply ∈ pool.replies, reply.answer = inner.answer reply.question) ∧
      (∀ e ∈ pool.memo.fees, e.2 = inner.fees e.1) ∧
      (∀ e ∈ pool.memo.prices, e.2 = inner.floorPrice e.1) ∧
      (pool.Quiet →
        pool.calls.Perm (pool.replies.map Reply.question) ∧
        pool.memo.cachedHeights =
          (pool.calls.filterMap Question.feesHeight?).toFinset.card) ∧
      n ≤ 9 * os.length ∧ (∃ m last, Pool.Reaches inner pool m last ∧ last.Stuck inner) ∧
      (pool.Stuck inner → pool.Quiet ∧
        pool.threads = os.map fun o => .running (.done (ofOutcome r c inner o).run))) ∧
    (∃ n pool, Pool.Reaches inner (threads r c os) n pool ∧ pool.memo = (inTurn r c inner os).2 ∧
      pool.threads = (inTurn r c inner os).1.map fun x => .running (.done x)) ∧
    ∀ s : FeeSchedule, ofBatch r c s os = os.map fun o => (ofOutcome r c s.lookup o).run := by
  refine ⟨fun n pool h => ?_, exists_reaches_inTurn r c inner os,
    fun s => inTurn_eq_map r c s.lookup os⟩
  have hFaithful := h.faithful
  have hEnd : n ≤ 9 * os.length :=
    (Nat.le_add_right n _).trans (h.add_work_le.trans (work_threads_le r c inner os))
  refine ⟨hFaithful.replies, hFaithful.memo.fees, hFaithful.memo.prices,
    fun hQuiet => ⟨hQuiet.calls_perm h.counted, hQuiet.cachedHeights_eq h.counted⟩, hEnd,
    h.exists_stuck, fun hStuck => ⟨hStuck.quiet, ?_⟩⟩
  rw [h.threads_of_stuck hStuck, map_run_ofOutcome, List.map_map]
  rfl

end Summary

end TxLens
