import Mathlib.Logic.Relation
import Stepwise.Proofs.Expr.Acceptance

namespace Stepwise.Expr

/-- The number of nodes on the longest way down. -/
def longestBranch : Expr → Nat
  | literal _ | constant _ => 1
  | neg e | call _ e => 1 + e.longestBranch
  | binary _ a b => 1 + max a.longestBranch b.longestBranch

theorem height_eq_longestBranch (e : Expr) : e.height = e.longestBranch := by
  induction e with
  | literal v => exact height_literal v
  | constant c => exact height_constant c
  | neg e ih => rw [height_neg, ih, longestBranch, Nat.add_comm]
  | call f e ih => rw [height_call, ih, longestBranch, Nat.add_comm]
  | binary op a b iha ihb => rw [height_binary, iha, ihb, longestBranch, Nat.add_comm]

namespace Descent

/-- A loop over nodes that are still to be visited: the greatest level seen so far, and the nodes
with their levels. -/
structure Search where
  seen : Nat
  pending : List (Expr × Nat)

/-- One round of the loop takes any of the pending nodes and puts its operands anywhere among the
others. -/
inductive Visits (d : Descent) : Search → Search → Prop
  | node {seen level : Nat} {e : Expr} {pending others next : List (Expr × Nat)} :
      pending.Perm ((e, level) :: others) → next.Perm (d.operands level e ++ others) →
      Visits d ⟨seen, pending⟩ ⟨max seen level, next⟩

variable {d : Descent} {s s' : Search}

section Termination

theorem pendingSize_perm {pending pending' : List (Expr × Nat)} (h : pending.Perm pending') :
    pendingSize pending = pendingSize pending' := by
  induction h with
  | nil => rfl
  | cons _ _ ih => rw [pendingSize, pendingSize, ih]
  | swap =>
    simp only [pendingSize]
    omega
  | trans _ _ ih ih' => exact ih.trans ih'

theorem Visits.pendingSize_lt (h : d.Visits s s') :
    pendingSize s'.pending < pendingSize s.pending := by
  cases h with
  | node hpending hnext =>
    rw [pendingSize_perm hpending, pendingSize_perm hnext]
    exact pendingSize_operands_lt d _ _ _

theorem wellFounded_visits (d : Descent) : WellFounded (Function.swap d.Visits) :=
  Subrelation.wf Visits.pendingSize_lt (measure fun s : Search => pendingSize s.pending).wf

theorem exists_visits (d : Descent) (h : s.pending ≠ []) : ∃ s', d.Visits s s' := by
  obtain ⟨seen, pending⟩ := s
  obtain ⟨⟨e, level⟩, others, rfl⟩ := List.exists_cons_of_ne_nil h
  exact ⟨_, .node (.refl _) (.refl _)⟩

end Termination

section Outcome

/-- What the loop is going to find: nothing that is done in the meantime changes it. -/
def Search.outcome (d : Descent) (s : Search) : Nat :=
  s.pending.foldl d.deeper s.seen

theorem foldl_deeper_perm (d : Descent) {pending pending' : List (Expr × Nat)}
    (h : pending.Perm pending') (seen : Nat) :
    pending.foldl d.deeper seen = pending'.foldl d.deeper seen := by
  refine h.foldl_eq' (fun a _ b _ level => ?_) seen
  simp only [deeper]
  omega

theorem Visits.outcome_eq (h : d.Visits s s') : s'.outcome d = s.outcome d := by
  cases h with
  | node hpending hnext =>
    rw [Search.outcome, Search.outcome, foldl_deeper_perm d hpending, foldl_deeper_perm d hnext,
      List.foldl_append, foldl_operands, List.foldl_cons, deeper]

theorem outcome_of_run (h : Relation.ReflTransGen d.Visits s s') :
    s'.outcome d = s.outcome d := by
  induction h with
  | refl => rfl
  | tail _ hlast ih => exact hlast.outcome_eq.trans ih

/-- A run that leaves nothing pending has seen the lowest node. -/
theorem seen_of_run {e : Expr} (h : Relation.ReflTransGen d.Visits ⟨0, [(e, 1)]⟩ s)
    (hdone : s.pending = []) : s.seen = d.reach e + 1 := by
  have houtcome := outcome_of_run h
  rw [Search.outcome, hdone, List.foldl_nil] at houtcome
  rw [houtcome, Search.outcome, ← deepest_eq_foldl, deepest_singleton]

/-- The loop of `deepest` is one of these runs: it takes the first node and puts its operands in
front. -/
theorem run_deepest (d : Descent) (seen : Nat) (pending : List (Expr × Nat)) :
    Relation.ReflTransGen d.Visits ⟨seen, pending⟩ ⟨d.deepest seen pending, []⟩ := by
  fun_induction deepest d seen pending with
  | case1 seen => exact .refl
  | case2 seen e level pending ih => exact .head (.node (.refl _) (.refl _)) ih

end Outcome

end Descent

/-- Each operand more puts one more operator on top. -/
theorem Joined.le_height {op? : Token → Option Operator} {operand : Reader} {tokens rest : List Token}
    {n : Nat} {e : Expr} (h : Joined op? operand tokens n e rest) : n ≤ e.height := by
  induction h with
  | first => exact height_pos _
  | next _ _ _ ih =>
    rw [height_binary]
    omega

/-- The loop ends and finds the height of the tree, in whatever order it visits the nodes. A chain
of `n` operands makes a tree of at least this height, so a tree whose chain is too long would be
refused for its height as well. -/
theorem height_of_loops_and_chains (e : Expr) :
    (WellFounded (Function.swap heightDescent.Visits) ∧
      ∀ s, Relation.ReflTransGen heightDescent.Visits ⟨0, [(e, 1)]⟩ s →
        (s.pending ≠ [] → ∃ s', heightDescent.Visits s s') ∧
        (s.pending = [] → s.seen = e.longestBranch)) ∧
    (Relation.ReflTransGen heightDescent.Visits ⟨0, [(e, 1)]⟩ ⟨e.height, []⟩ ∧
      e.height = e.longestBranch) ∧
    ∀ limits levels (c : Chain) tokens rest,
      let operand := reader limits levels c.operand
      (reader limits levels (.chain c) tokens = .ok (e, rest) ↔ ∃ n ≤ max 1 limits.height,
        Joined c.operator? operand tokens n e rest ∧ EndsChain c.operator? rest) ∧
      ∀ n, Joined c.operator? operand tokens n e rest → n ≤ e.height ∧
        (EndsChain c.operator? rest → e.height ≤ limits.height →
          reader limits levels (.chain c) tokens = .ok (e, rest)) := by
  have hbranch := height_eq_longestBranch e
  refine ⟨⟨Descent.wellFounded_visits _, fun s hrun => ⟨Descent.exists_visits _, fun hdone => ?_⟩⟩,
    ⟨Descent.run_deepest _ _ _, hbranch⟩, fun limits levels c tokens rest => ?_⟩
  · rw [Descent.seen_of_run hrun hdone, ← height_eq, hbranch]
  · have hread := @chain_eq_ok_iff limits c.operator? (reader limits levels c.operand) tokens rest e
    rw [← reader_chain] at hread
    refine ⟨hread, fun n hjoined => ⟨hjoined.le_height, fun hends hheight => hread.mpr ?_⟩⟩
    have hn := hjoined.le_height
    exact ⟨n, by omega, hjoined, hends⟩

end Stepwise.Expr
