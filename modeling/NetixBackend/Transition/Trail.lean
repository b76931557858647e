import Mathlib.Data.List.Nodup
import Mathlib.Data.Fintype.Card
import Mathlib.Data.Finset.BooleanAlgebra
import Mathlib.Logic.Function.Iterate

/-!
Following one link after another through a finite graph.

Every node has at most one link, so where a walk goes is settled by its start;
that it may go round is all there is to it. A trail is the walk up to the
first node it has met before. There is exactly one, and a loop that keeps the
nodes it has met builds it.
-/

namespace Transition

variable {ι : Type*} {next : ι → Option ι} {start : Option ι} {nodes : List ι}

/-- The node `k` links on from the start, if the walk gets there. -/
def follow (next : ι → Option ι) (start : Option ι) (k : ℕ) : Option ι :=
  (fun node => node.bind next)^[k] start

@[simp] theorem follow_zero : follow next start 0 = start := rfl

theorem follow_succ (k : ℕ) : follow next start (k + 1) = (follow next start k).bind next :=
  Function.iterate_succ_apply' _ k start

/-- The walk has met `nodes` in turn, all different. -/
structure Underway (next : ι → Option ι) (start : Option ι) (nodes : List ι) : Prop where
  follows : ∀ k < nodes.length, nodes[k]? = follow next start k
  nodup : nodes.Nodup

/-- A walk that ends where it misses a link or would meet a node again. -/
structure IsTrail (next : ι → Option ι) (start : Option ι) (nodes : List ι) : Prop
    extends Underway next start nodes where
  ends : ∀ node ∈ follow next start nodes.length, node ∈ nodes

theorem Underway.nil : Underway next start [] := ⟨by simp, List.nodup_nil⟩

theorem Underway.concat {node : ι} (h : Underway next start nodes)
    (hnext : follow next start nodes.length = some node) (hnode : node ∉ nodes) :
    Underway next start (nodes ++ [node]) where
  follows := by
    intro k hk
    rw [List.length_append, List.length_singleton, Nat.lt_succ_iff] at hk
    rcases hk.lt_or_eq with hlt | rfl
    · rw [List.getElem?_append_left hlt]
      exact h.follows k hlt
    · simp [hnext]
  nodup := List.nodup_append.mpr ⟨h.nodup, List.nodup_singleton node, by
    intro met hmet last hlast
    rw [List.mem_singleton] at hlast
    exact fun heq => hnode (hlast ▸ heq ▸ hmet)⟩

theorem IsTrail.head? (h : IsTrail next start nodes) : nodes.head? = start := by
  cases nodes with
  | cons node rest =>
      have hzero := h.follows 0 (by simp)
      simpa using hzero
  | nil =>
      have hnone : ∀ node, start ≠ some node := by
        intro node hstart
        simpa using h.ends node (by simpa using hstart)
      simpa using (Option.eq_none_iff_forall_ne_some.mpr hnone).symm

/-- One trail cannot stop short of another. -/
theorem IsTrail.length_le {nodes' : List ι} (h : IsTrail next start nodes)
    (h' : Underway next start nodes') : nodes'.length ≤ nodes.length := by
  by_contra hlt
  rw [not_le] at hlt
  have hnext : nodes'[nodes.length]? = follow next start nodes.length := h'.follows _ hlt
  have hget : nodes'[nodes.length]? = some nodes'[nodes.length] := List.getElem?_eq_getElem hlt
  obtain ⟨k, hk⟩ := List.mem_iff_getElem?.mp (h.ends _ (hnext.symm.trans hget))
  have hk' : k < nodes.length := (List.getElem?_eq_some_iff.mp hk).1
  have hrepeat : nodes'[k]? = nodes'[nodes.length]? := by
    rw [h'.follows k (hk'.trans hlt), ← h.follows k hk', hk, hget]
  exact absurd ((List.getElem?_inj (hk'.trans hlt) h'.nodup).mp hrepeat) hk'.ne

theorem IsTrail.unique {nodes' : List ι} (h : IsTrail next start nodes)
    (h' : IsTrail next start nodes') : nodes = nodes' := by
  have hlength : nodes.length = nodes'.length :=
    le_antisymm (h'.length_le h.toUnderway) (h.length_le h'.toUnderway)
  refine List.ext_getElem? fun k => ?_
  by_cases hk : k < nodes.length
  · rw [h.follows k hk, h'.follows k (hlength ▸ hk)]
  · rw [List.getElem?_eq_none (not_lt.mp hk), List.getElem?_eq_none (hlength ▸ not_lt.mp hk)]

/-- Another link function has the same trail exactly when it links the nodes
of the trail the same way, up to the last one, where both may end. -/
theorem IsTrail.iff_of_links {next' : ι → Option ι} (h : IsTrail next start nodes) :
    IsTrail next' start nodes ↔
      ∀ node ∈ nodes, next' node = next node ∨
        nodes.getLast? = some node ∧ ∀ met ∈ next' node, met ∈ nodes := by
  constructor
  · intro h' node hnode
    obtain ⟨k, hk⟩ := List.mem_iff_getElem?.mp hnode
    have hlt : k < nodes.length := (List.getElem?_eq_some_iff.mp hk).1
    have hfollow : follow next start (k + 1) = next node := by
      rw [follow_succ, ← h.follows k hlt, hk, Option.bind_some]
    have hfollow' : follow next' start (k + 1) = next' node := by
      rw [follow_succ, ← h'.follows k hlt, hk, Option.bind_some]
    rcases (show k + 1 ≤ nodes.length from hlt).lt_or_eq with hmore | hlast
    · left
      rw [← hfollow, ← hfollow', ← h.follows _ hmore, ← h'.follows _ hmore]
    · right
      refine ⟨by rw [List.getLast?_eq_getElem?, ← hlast]; exact hk, ?_⟩
      rw [← hfollow', hlast]
      exact h'.ends
  · intro hlinks
    have hfollow : ∀ k < nodes.length, follow next' start k = follow next start k := by
      intro k hk
      induction k with
      | zero => rfl
      | succ k ih =>
          have hlt : k < nodes.length := by omega
          have hget := List.getElem?_eq_getElem hlt
          rw [follow_succ, follow_succ, ih hlt, ← h.follows k hlt, hget]
          rcases hlinks _ (List.getElem_mem hlt) with heq | ⟨hlast, -⟩
          · exact heq
          · rw [List.getLast?_eq_getElem?] at hlast
            have := (List.getElem?_inj hlt h.nodup).mp (hget.trans hlast.symm)
            omega
    refine ⟨⟨fun k hk => (h.follows k hk).trans (hfollow k hk).symm, h.nodup⟩, ?_⟩
    cases hlength : nodes.length with
    | zero =>
        have hends := h.ends
        rwa [hlength] at hends
    | succ k =>
        have hlt : k < nodes.length := by omega
        have hget := List.getElem?_eq_getElem hlt
        have hends := h.ends
        rw [hlength, follow_succ, ← h.follows k hlt, hget, Option.bind_some] at hends
        rw [follow_succ, hfollow k hlt, ← h.follows k hlt, hget, Option.bind_some]
        rcases hlinks _ (List.getElem_mem hlt) with heq | ⟨-, hback⟩
        · rwa [heq]
        · exact hback

/-! ### The loop -/

section Walk

variable [DecidableEq ι]

theorem card_unmet_lt [Fintype ι] {node : ι} {met : List ι} (h : node ∉ met) :
    (met ++ [node]).toFinsetᶜ.card < met.toFinsetᶜ.card := by
  refine Finset.card_lt_card (Finset.compl_ssubset_compl.mpr ?_)
  rw [List.toFinset_append, List.toFinset_cons, List.toFinset_nil, Finset.insert_empty,
    Finset.union_singleton]
  exact Finset.ssubset_insert (by rwa [List.mem_toFinset])

/-- All the nodes of a walk that has met `met` and goes on at `current`. -/
def walk [Fintype ι] (next : ι → Option ι) (met : List ι) : Option ι → List ι
  | none => met
  | some node =>
      if h : node ∈ met then met
      else
        have := card_unmet_lt h
        walk next (met ++ [node]) (next node)
termination_by met.toFinsetᶜ.card
decreasing_by assumption

def trail [Fintype ι] (next : ι → Option ι) (start : Option ι) : List ι := walk next [] start

theorem Underway.isTrail_walk [Fintype ι] {current : Option ι} (h : Underway next start nodes)
    (hcurrent : follow next start nodes.length = current) :
    IsTrail next start (walk next nodes current) := by
  induction nodes, current using walk.induct next with
  | case1 met =>
      rw [walk]
      exact ⟨h, by simp [hcurrent]⟩
  | case2 met node hmem =>
      rw [walk, dif_pos hmem]
      refine ⟨h, ?_⟩
      rw [hcurrent]
      rintro again ⟨⟩
      exact hmem
  | case3 met node hmem _ ih =>
      rw [walk, dif_neg hmem]
      refine ih (h.concat hcurrent hmem) ?_
      rw [List.length_append, List.length_singleton, follow_succ, hcurrent, Option.bind_some]

theorem isTrail_trail [Fintype ι] (next : ι → Option ι) (start : Option ι) :
    IsTrail next start (trail next start) :=
  Underway.nil.isTrail_walk rfl

end Walk

end Transition
