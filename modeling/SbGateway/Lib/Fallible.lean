import Mathlib.Data.List.Forall2

namespace SbGateway.Lib

/-!
# Reasoning about computations that may fail

Inversion of a successful `bind` and the induction rule for a loop that may stop with an
error: what every successful iteration preserves holds after a successful loop.
-/

universe u v w

variable {ε : Type u} {α : Type w} {β σ : Type v}

/-- A successful `bind` had a successful first part. -/
theorem bind_eq_ok {x : Except ε σ} {f : σ → Except ε β} {b : β} (h : (x >>= f) = .ok b) :
    ∃ a, x = .ok a ∧ f a = .ok b := by
  cases x with
  | error e => cases h
  | ok a => exact ⟨a, rfl, h⟩

/-- A check that a successful run has passed. -/
theorem check_eq_ok {c : Prop} [Decidable c] {m : Except ε α}
    (h : (if c then .error e else m) = .ok a) : ¬ c ∧ m = .ok a := by
  split at h
  · cases h
  · exact ⟨by assumption, h⟩

/-- **Loop rule.** `I done s` relates the state to the part of the list already consumed. -/
theorem foldlM_eq_ok_induct {f : σ → α → Except ε σ} (I : List α → σ → Prop)
    (step : ∀ done a s s', I done s → f s a = .ok s' → I (done ++ [a]) s')
    (init : I [] s) (h : l.foldlM f s = .ok s') : I l s' := by
  -- the consumed part is generalised, so that the hypothesis covers every start
  have key : ∀ (l done : List α) (s : σ), I done s → l.foldlM f s = .ok s' →
      I (done ++ l) s' := by
    intro l
    induction l with
    | nil =>
      intro done s hI hrun
      rw [List.foldlM_nil] at hrun
      cases hrun
      simpa using hI
    | cons a rest ih =>
      intro done s hI hrun
      rw [List.foldlM_cons] at hrun
      obtain ⟨mid, hmid, hrest⟩ := bind_eq_ok hrun
      simpa using ih (done ++ [a]) mid (step done a s mid hI hmid) hrest
  simpa using key l [] s init h

/-- The results of a successful loop, one for each element. -/
theorem mapM_eq_ok {ε α β : Type} {f : α → Except ε β} {l : List α} {r : List β}
    (h : l.mapM f = .ok r) : List.Forall₂ (fun a b => f a = .ok b) l r := by
  induction l generalizing r with
  | nil =>
    cases h
    exact .nil
  | cons a l ih =>
    rw [List.mapM_cons] at h
    obtain ⟨b, hb, h⟩ := bind_eq_ok h
    obtain ⟨bs, hbs, h⟩ := bind_eq_ok h
    cases h
    exact .cons hb (ih hbs)

/-- The results of a loop over optional values, one for each element. -/
theorem mapM_eq_some {α β : Type} {f : α → Option β} {l : List α} {r : List β}
    (h : l.mapM f = some r) : List.Forall₂ (fun a b => f a = some b) l r := by
  induction l generalizing r with
  | nil =>
    cases h
    exact .nil
  | cons a l ih =>
    rw [List.mapM_cons] at h
    obtain ⟨b, hb, h⟩ := Option.bind_eq_some_iff.mp h
    obtain ⟨bs, hbs, h⟩ := Option.bind_eq_some_iff.mp h
    cases h
    exact .cons hb (ih hbs)

/-- Every element on the right is related to one on the left. -/
theorem exists_of_mem_forall₂ {α β : Type} {R : α → β → Prop} {as : List α} {bs : List β}
    (h : List.Forall₂ R as bs) {b : β} (hb : b ∈ bs) : ∃ a ∈ as, R a b := by
  induction h with
  | nil => cases hb
  | @cons x y as bs hxy _ ih =>
    rcases List.mem_cons.mp hb with rfl | hb
    · exact ⟨x, List.mem_cons_self .., hxy⟩
    · obtain ⟨a, ha, hab⟩ := ih hb
      exact ⟨a, List.mem_cons_of_mem _ ha, hab⟩

/-- Every result of a successful loop comes from an element. -/
theorem exists_of_mem_mapM {ε α β : Type} {f : α → Except ε β} {l : List α} {r : List β}
    (h : l.mapM f = .ok r) {b : β} (hb : b ∈ r) : ∃ a ∈ l, f a = .ok b :=
  exists_of_mem_forall₂ (mapM_eq_ok h) hb

/-- Every element of a successful loop has a result. -/
theorem exists_mem_of_mapM {ε α β : Type} {f : α → Except ε β} {l : List α} {r : List β}
    (h : l.mapM f = .ok r) {a : α} (ha : a ∈ l) : ∃ b ∈ r, f a = .ok b :=
  exists_of_mem_forall₂ (mapM_eq_ok h).flip ha

/-- A successful loop is a map of the successful results. -/
theorem mapM_eq_map {ε α β : Type} {f : α → Except ε (List β)} {l : List α} {r : List (List β)}
    (h : l.mapM f = .ok r) : r = l.map fun a => (f a).toOption.getD [] := by
  have hall := mapM_eq_ok h
  clear h
  induction hall with
  | nil => rfl
  | cons hab _ ih =>
    rw [List.map_cons, hab, ← ih]
    rfl

/-- A computation that can be seen to succeed has a result. -/
theorem exists_of_isOk {x : Except ε α} (h : x.isOk = true) : ∃ a, x = .ok a := by
  cases x with
  | error e => cases h
  | ok a => exact ⟨a, rfl⟩

end SbGateway.Lib
