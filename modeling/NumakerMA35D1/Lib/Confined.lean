import NumakerMA35D1.Lib.Outcome

/-!
# Computations confined to a part of the state

A computation on a state is confined when it reads one part of the state only and writes that part
only: from states alike on the part it comes to the same, with states alike again, and what it leaves
is kept in the rest. The part is given by two relations, `alike` and `kept`. Sequences of confined
computations are confined (`Confined.bind`).
-/

namespace Embedded

universe u

variable {σ ε α β : Type u}

/-- Two computations stop alike, or come to the same value with states alike. -/
def SameResult (alike : σ → σ → Prop) : Except ε (α × σ) → Except ε (α × σ) → Prop
  | .ok (a, s), .ok (b, t) => a = b ∧ alike s t
  | .error _, .error _ => True
  | _, _ => False

/-- A computation reads and writes one part of the state only. -/
structure Confined (alike kept : σ → σ → Prop) (m : σ → Except ε (α × σ)) : Prop where
  reads : ∀ {s t}, alike s t → SameResult alike (m s) (m t)
  writes : ∀ {s a t}, m s = .ok (a, t) → kept s t

variable {alike kept : σ → σ → Prop} {m n : σ → Except ε (α × σ)} {s t : σ} {a : α}

/-- What a confined computation comes to from a state alike. -/
theorem Confined.ok (h : Confined alike kept m) (hst : alike s t) {s' : σ}
    (hs : m s = .ok (a, s')) : ∃ t', m t = .ok (a, t') ∧ alike s' t' := by
  have hr := h.reads hst
  rw [hs] at hr
  cases ht : m t with
  | error e =>
    rw [ht] at hr
    exact hr.elim
  | ok r =>
    obtain ⟨b, t'⟩ := r
    rw [ht] at hr
    obtain ⟨rfl, hlike⟩ := hr
    exact ⟨t', rfl, hlike⟩

/-- A value without a look at the state. -/
theorem Confined.pure (hrefl : ∀ s, kept s s) (a : α) :
    Confined alike kept fun s => (.ok (a, s) : Except ε (α × σ)) where
  reads hst := ⟨rfl, hst⟩
  writes {s b t} h := by
    cases h
    exact hrefl s

/-- One computation after another that depends on its value. -/
theorem Confined.bind (h : Confined alike kept m)
    (htrans : ∀ {s t u}, kept s t → kept t u → kept s u) {f : α × σ → Except ε (β × σ)}
    (hf : ∀ a, Confined alike kept fun s => f (a, s)) :
    Confined alike kept fun s => m s >>= f where
  reads {s t} hst := by
    have hr := h.reads hst
    cases hs : m s with
    | error e =>
      cases ht : m t with
      | error e' => trivial
      | ok r' =>
        rw [hs, ht] at hr
        exact hr.elim
    | ok r =>
      obtain ⟨a, s'⟩ := r
      obtain ⟨t', ht, hlike⟩ := h.ok hst hs
      rw [ht]
      exact (hf a).reads hlike
  writes {s b t} hs := by
    obtain ⟨⟨a, s'⟩, hm, hrest⟩ := bind_eq_ok.1 hs
    exact htrans (h.writes hm) ((hf a).writes hrest)

/-- A choice that does not depend on the state. -/
theorem Confined.ite {c : Prop} [Decidable c] (hm : c → Confined alike kept m)
    (hn : ¬ c → Confined alike kept n) :
    Confined alike kept fun s => if c then m s else n s := by
  by_cases hc : c
  · have heq : (fun s => if c then m s else n s) = m := funext fun _ => if_pos hc
    rw [heq]
    exact hm hc
  · have heq : (fun s => if c then m s else n s) = n := funext fun _ => if_neg hc
    rw [heq]
    exact hn hc

end Embedded
