import Mathlib

namespace SbGateway.Lib.Graph

/-!
# Depth-first visits

A visit of a graph whose nodes list their successors.  A node is added to the result before its
successors are visited, and a node of the result is not visited again.

* `mem_visit_iff` — with more fuel than there are nodes, a visit finds exactly the nodes that can be
  reached.
-/

variable {α : Type} {next : α → Option (List α)}

/-! ### Paths -/

/-- An edge between two nodes. -/
def Edge (next : α → Option (List α)) (a b : α) : Prop :=
  ∃ successors, next a = some successors ∧ b ∈ successors ∧ (next b).isSome = true

/-- A node, and another one that can be reached from it. -/
structure Reaches (next : α → Option (List α)) (a b : α) : Prop where
  node : (next a).isSome = true
  path : Relation.ReflTransGen (Edge next) a b

theorem Reaches.refl (h : (next a).isSome = true) : Reaches next a a := ⟨h, .refl⟩

theorem Reaches.target (h : Reaches next a b) : (next b).isSome = true := by
  rcases Relation.ReflTransGen.cases_tail h.path with rfl | ⟨c, -, successors, -, -, hb⟩
  · exact h.node
  · exact hb

/-- One more edge. -/
theorem Reaches.head (h : Reaches next b c) (ha : next a = some successors) (hb : b ∈ successors) :
    Reaches next a c :=
  ⟨Option.isSome_of_eq_some ha, .head ⟨successors, ha, hb, h.node⟩ h.path⟩

/-- More nodes and more edges. -/
theorem Reaches.mono {next' : α → Option (List α)}
    (h : ∀ node successors, next node = some successors → next' node = some successors)
    (hab : Reaches next a b) : Reaches next' a b := by
  have hsome : ∀ node, (next node).isSome = true → (next' node).isSome = true := by
    intro node hnode
    obtain ⟨successors, hnode⟩ := Option.isSome_iff_exists.mp hnode
    rw [h node successors hnode]
    rfl
  refine ⟨hsome a hab.node, Relation.ReflTransGen.mono ?_ _ _ hab.path⟩
  intro x y ⟨successors, hx, hy, hnode⟩
  exact ⟨successors, h x successors hx, hy, hsome y hnode⟩

/-! ### What a visit keeps and finds -/

/-- A loop whose steps keep the result keeps it. -/
theorem subset_foldl {step : List α → α → List α} (hstep : ∀ result a, result ⊆ step result a)
    (values result : List α) : result ⊆ values.foldl step result :=
  List.foldlRecOn values step (List.Subset.refl _) fun _ hkept a _ =>
    List.Subset.trans hkept (hstep _ a)

variable [DecidableEq α]

/-- Visit a node and its successors, each once; `next` is `none` for what is no node. -/
def visit (next : α → Option (List α)) : ℕ → List α → α → List α
  | 0, result, _ => result
  | fuel + 1, result, current =>
    if current ∈ result then result
    else match next current with
      | none => result
      | some successors => successors.foldl (visit next fuel) (result ++ [current])

theorem subset_visit (fuel : ℕ) (result : List α) (current : α) :
    result ⊆ visit next fuel result current := by
  induction fuel generalizing result current with
  | zero => exact fun _ h => h
  | succ fuel ih =>
    rw [visit]
    split
    · exact fun _ h => h
    · split
      · exact fun _ h => h
      · exact List.Subset.trans (List.subset_append_left _ _) (subset_foldl ih _ _)

variable {result : List α}

/-- Everything that a visit adds can be reached. -/
theorem reaches_of_mem_visit (h : x ∈ visit next fuel result current) :
    x ∈ result ∨ Reaches next current x := by
  induction fuel generalizing result current with
  | zero => exact .inl h
  | succ fuel ih =>
    rw [visit] at h
    split at h
    · exact .inl h
    · split at h
      · exact .inl h
      next successors hnext =>
        have hnode : (next current).isSome = true := by rw [hnext]; rfl
        -- The loop over the successors.
        refine List.foldlRecOn (motive := fun visited => x ∈ visited → x ∈ result ∨ _) successors
          (visit next fuel) ?_ ?_ h
        · intro hx
          rcases List.mem_append.mp hx with hx | hx
          · exact .inl hx
          · rw [List.mem_singleton.mp hx]
            exact .inr (.refl hnode)
        · intro visited hvisited a ha hx
          rcases ih hx with hx | hx
          · exact hvisited hx
          · exact .inr (hx.head hnext ha)

/-! ### Closure -/

/-- The number of nodes that are not in the result yet. -/
def unseen (nodes : Finset α) (result : List α) : ℕ := (nodes \ result.toFinset).card

theorem unseen_mono (nodes : Finset α) (h : result ⊆ result') :
    unseen nodes result' ≤ unseen nodes result := by
  refine Finset.card_le_card (Finset.sdiff_subset_sdiff (fun _ ha => ha) fun a ha => ?_)
  exact List.mem_toFinset.mpr (h (List.mem_toFinset.mp ha))

theorem unseen_append_lt (hnode : a ∈ nodes) (ha : a ∉ result) :
    unseen nodes (result ++ [a]) < unseen nodes result := by
  refine Finset.card_lt_card (Finset.ssubset_iff_of_subset ?_ |>.mpr ⟨a, ?_, ?_⟩)
  · intro b hb
    simp only [Finset.mem_sdiff, List.mem_toFinset, List.mem_append, not_or] at hb ⊢
    exact ⟨hb.1, hb.2.1⟩
  · simp [hnode, ha]
  · simp

variable {nodes : Finset α}

/-- A visit with enough fuel finds the node, and the successors of all nodes that it adds. -/
theorem visit_closed (hnodes : ∀ a, (next a).isSome = true → a ∈ nodes) (current : α)
    (hfuel : unseen nodes result < fuel) :
    ((next current).isSome = true → current ∈ visit next fuel result current) ∧
      ∀ a ∈ visit next fuel result current, a ∉ result → ∀ b, Edge next a b →
        b ∈ visit next fuel result current := by
  induction fuel generalizing result current with
  | zero => exact (Nat.not_lt_zero _ hfuel).elim
  | succ fuel ih =>
    rw [visit]
    split
    next hmem => exact ⟨fun _ => hmem, fun a ha hne => (hne ha).elim⟩
    next hnew =>
      split
      next hnone =>
        refine ⟨fun hsome => ?_, fun a ha hne => (hne ha).elim⟩
        rw [hnone] at hsome
        cases hsome
      next successors hnext =>
        have hnode : (next current).isSome = true := by rw [hnext]; rfl
        have hless := unseen_append_lt (hnodes current hnode) hnew
        -- The loop over the successors, from a result that leaves the fuel sufficient.
        have hloop : ∀ (values start : List α), unseen nodes start < fuel →
            (∀ b ∈ values, (next b).isSome = true → b ∈ values.foldl (visit next fuel) start) ∧
            ∀ a ∈ values.foldl (visit next fuel) start, a ∉ start → ∀ b, Edge next a b →
              b ∈ values.foldl (visit next fuel) start := by
          intro values
          induction values with
          | nil => exact fun start _ => ⟨fun b hb => (List.not_mem_nil hb).elim,
              fun a ha hne => (hne ha).elim⟩
          | cons v values ihvalues =>
            intro start hstart
            have hkept := @subset_visit _ next _ fuel start v
            have hgrown := subset_foldl (@subset_visit _ next _ fuel) values
              (visit next fuel start v)
            obtain ⟨hfound, hclosed⟩ := ih v hstart
            obtain ⟨hfoundRest, hclosedRest⟩ :=
              ihvalues (visit next fuel start v) ((unseen_mono nodes hkept).trans_lt hstart)
            rw [List.foldl_cons]
            constructor
            · intro b hb hsome
              rcases List.mem_cons.mp hb with rfl | hb
              · exact hgrown (hfound hsome)
              · exact hfoundRest b hb hsome
            · intro a ha hne b hedge
              by_cases hmid : a ∈ visit next fuel start v
              · exact hgrown (hclosed a hmid hne b hedge)
              · exact hclosedRest a ha hmid b hedge
        obtain ⟨hfound, hclosed⟩ := hloop successors (result ++ [current]) (by omega)
        have hgrown := subset_foldl (@subset_visit _ next _ fuel) successors
          (result ++ [current])
        refine ⟨fun _ => hgrown (by simp), fun a ha hne b hedge => ?_⟩
        by_cases hcurrent : a = current
        · obtain ⟨successors', hnext', hb, hsome⟩ := hedge
          rw [hcurrent, hnext, Option.some_inj] at hnext'
          exact hfound b (hnext' ▸ hb) hsome
        · exact hclosed a ha (by simp [hne, hcurrent]) b hedge

/-- **Visits.** With more fuel than there are nodes, a visit from the empty result finds exactly the
    nodes that can be reached. -/
theorem mem_visit_iff (hnodes : ∀ a, (next a).isSome = true → a ∈ nodes)
    (hfuel : nodes.card < fuel) : x ∈ visit next fuel [] current ↔ Reaches next current x := by
  constructor
  · intro hx
    exact (reaches_of_mem_visit hx).resolve_left List.not_mem_nil
  · intro hx
    have hstart : unseen nodes [] < fuel :=
      (Finset.card_le_card Finset.sdiff_subset).trans_lt hfuel
    obtain ⟨hfound, hclosed⟩ := visit_closed hnodes current hstart
    obtain ⟨hnode, hpath⟩ := hx
    induction hpath with
    | refl => exact hfound hnode
    | tail _ hedge ih => exact hclosed _ ih List.not_mem_nil _ hedge

end SbGateway.Lib.Graph
