import Mathlib

/-!
# Linked lists

`Links next p xs q` says that the links from the pointer `p` pass the nodes `xs`, one after another,
and come to `q`; they are a `Chain` when they come to NULL. A chain's nodes are distinct
(`Chain.nodup`) and are those that its pointer reaches (`Chain.reaches_iff`). Insertion behind a node
and removal are updates of one link (`Links.insert`, `Links.remove`). The loops over a chain find what
the list operations find (`walk_chain`, `unlink_chain`, `unlink_not_mem`); `walk` and `unlink` take
more steps than they are given only on links that never come to NULL.
-/

namespace Embedded

variable {α : Type*}

/-- The links from `p` pass the nodes and come to `q`. -/
def Links (next : α → Option α) : Option α → List α → Option α → Prop
  | p, [], q => p = q
  | p, x :: xs, q => p = some x ∧ Links next (next x) xs q

/-- The links from `p` pass the nodes and end. -/
abbrev Chain (next : α → Option α) (p : Option α) (xs : List α) : Prop := Links next p xs none

/-- The links from `p` come to the node. -/
def Reaches (next : α → Option α) (p : Option α) (x : α) : Prop := ∃ xs, Links next p xs (some x)

section

variable {next next' : α → Option α} {p q r : Option α} {xs ys : List α} {x y t : α}

theorem Links.append (h : Links next p xs q) (h' : Links next q ys r) :
    Links next p (xs ++ ys) r := by
  induction xs generalizing p with
  | nil =>
    cases h
    exact h'
  | cons x xs ih => exact ⟨h.1, ih h.2⟩

theorem Links.split (h : Links next p (xs ++ ys) r) : ∃ q, Links next p xs q ∧ Links next q ys r := by
  induction xs generalizing p with
  | nil => exact ⟨p, rfl, h⟩
  | cons x xs ih =>
    obtain ⟨q, hxs, hys⟩ := ih h.2
    exact ⟨q, ⟨h.1, hxs⟩, hys⟩

/-- Only the links of the nodes matter. -/
theorem Links.congr (h : Links next p xs q) (heq : ∀ x ∈ xs, next' x = next x) :
    Links next' p xs q := by
  induction xs generalizing p with
  | nil => exact h
  | cons x xs ih =>
    refine ⟨h.1, ?_⟩
    rw [heq x (.head _)]
    exact ih h.2 fun y hy => heq y (.tail _ hy)

theorem Links.unique (h : Links next p xs none) (h' : Links next p ys none) : xs = ys := by
  induction xs generalizing p ys with
  | nil =>
    cases h
    cases ys with
    | nil => rfl
    | cons y ys => cases h'.1
  | cons x xs ih =>
    obtain ⟨rfl, hxs⟩ := h
    cases ys with
    | nil => cases h'
    | cons y ys =>
      obtain ⟨heq, hys⟩ := h'
      cases heq
      rw [ih hxs hys]

/-- The nodes of a chain are distinct. -/
theorem Chain.nodup (h : Chain next p xs) : xs.Nodup := by
  induction xs generalizing p with
  | nil => exact .nil
  | cons x xs ih =>
    refine List.nodup_cons.2 ⟨fun hmem => ?_, ih h.2⟩
    obtain ⟨as, bs, rfl⟩ := List.append_of_mem hmem
    obtain ⟨q, -, hbs⟩ := h.2.split
    have hsame : bs = as ++ x :: bs := hbs.2.unique h.2
    have hlen := congrArg List.length hsame
    simp only [List.length_append, List.length_cons] at hlen
    omega

theorem Chain.head (h : Chain next p xs) : p = xs.head? := by
  cases xs with
  | nil => exact h
  | cons x xs => exact h.1

/-- Another chain is put behind the last node. -/
theorem Chain.concat (h : Chain next p xs) (hne : xs ≠ [])
    (hsame : ∀ x ∈ xs, some x ≠ xs.getLast? → next' x = next x)
    (hlast : ∀ l ∈ xs.getLast?, next' l = ys.head?) (h' : Chain next' ys.head? ys) :
    Chain next' p (xs ++ ys) := by
  induction xs generalizing p with
  | nil => exact absurd rfl hne
  | cons x xs ih =>
    obtain ⟨rfl, hxs⟩ := h
    refine ⟨rfl, ?_⟩
    cases xs with
    | nil =>
      rw [hlast x rfl]
      exact h'
    | cons y ys' =>
      have hnd : (x :: y :: ys').Nodup := Chain.nodup (p := some x) ⟨rfl, hxs⟩
      have hx : next' x = next x := by
        refine hsame x (.head _) fun heq => ?_
        rw [List.getLast?_cons_cons] at heq
        exact (List.nodup_cons.1 hnd).1 (List.mem_of_getLast? heq.symm)
      rw [hx]
      refine ih hxs (List.cons_ne_nil y ys') (fun z hz hz' => ?_) fun l hl => ?_
      · refine hsame z (.tail _ hz) ?_
        rwa [List.getLast?_cons_cons]
      · refine hlast l ?_
        rwa [List.getLast?_cons_cons]

/-- A chain goes on behind its last node. -/
theorem Chain.snoc (h : Chain next xs.head? xs)
    (hsame : ∀ x ∈ xs, some x ≠ xs.getLast? → next' x = next x)
    (hlast : ∀ l ∈ xs.getLast?, next' l = some t) (hend : next' t = none) :
    Chain next' (xs ++ [t]).head? (xs ++ [t]) := by
  cases xs with
  | nil => exact ⟨rfl, hend⟩
  | cons x xs => exact h.concat (List.cons_ne_nil x xs) hsame hlast ⟨rfl, hend⟩

/-- The pointer of a chain reaches its nodes. -/
theorem Chain.reaches_iff (h : Chain next p xs) : Reaches next p x ↔ x ∈ xs := by
  constructor
  · rintro ⟨as, has⟩
    induction as generalizing p xs with
    | nil =>
      cases has
      cases xs with
      | nil => cases h
      | cons y xs =>
        cases h.1
        exact .head _
    | cons a as ih =>
      obtain ⟨rfl, has⟩ := has
      cases xs with
      | nil => cases h
      | cons y xs =>
        obtain ⟨hy, hxs⟩ := h
        cases hy
        exact .tail _ (ih hxs has)
  · intro hmem
    obtain ⟨as, bs, rfl⟩ := List.append_of_mem hmem
    obtain ⟨q, has, hbs⟩ := h.split
    rw [hbs.1] at has
    exact ⟨as, has⟩

end

section

variable [DecidableEq α] {next : α → Option α} {p q : Option α} {xs as bs : List α} {x y t : α}

theorem Links.update (h : Links next p xs q) (hx : x ∉ xs) (v : Option α) :
    Links (Function.update next x v) p xs q := by
  refine h.congr fun y hy => Function.update_of_ne ?_ ..
  rintro rfl
  exact hx hy

/-- A node is inserted behind `x`. -/
theorem Links.insert (h : Links next (next x) xs q) (ht : t ∉ xs) (hx : x ∉ xs) (hne : t ≠ x) :
    Links (Function.update (Function.update next t (next x)) x (some t)) (some t) (t :: xs) q := by
  refine ⟨rfl, ?_⟩
  rw [Function.update_of_ne hne, Function.update_self]
  exact (h.update ht _).update hx _

/-- The node behind `y` is taken out. -/
theorem Links.remove (h : Links next p (as ++ y :: t :: bs) q) (hnd : (as ++ y :: t :: bs).Nodup) :
    Links (Function.update next y (next t)) p (as ++ y :: bs) q := by
  obtain ⟨r, has, hr, hyt, hbs⟩ := h.split
  have hdisj := List.nodup_append.1 hnd
  have hyas : y ∉ as := fun hy => hdisj.2.2 y hy y (.head _) rfl
  have hybs : y ∉ bs := fun hy => (List.nodup_cons.1 hdisj.2.1).1 (.tail _ hy)
  refine (has.update hyas _).append ⟨hr, ?_⟩
  rw [Function.update_self]
  exact hbs.update hybs _

/-! ## Loops -/

/-- The first node that passes a test; none at all where the steps do not come to an end. -/
def walk (next : α → Option α) (test : α → Bool) : Nat → Option α → Option (Option α)
  | _, none => some none
  | 0, some _ => none
  | n + 1, some x => if test x then some (some x) else walk next test n (next x)

omit [DecidableEq α] in
theorem walk_chain (h : Chain next p xs) (test : α → Bool) {n : Nat} (hn : xs.length ≤ n) :
    walk next test n p = some (xs.find? test) := by
  induction xs generalizing p n with
  | nil =>
    cases h
    cases n <;> rfl
  | cons x xs ih =>
    obtain ⟨rfl, hxs⟩ := h
    cases n with
    | zero => cases hn
    | succ n =>
      rw [walk, List.find?_cons]
      cases test x with
      | true => rfl
      | false => exact ih hxs (Nat.le_of_succ_le_succ hn)

omit [DecidableEq α] in
/-- The node without a link is the last one. -/
theorem find_last (h : Chain next p xs) : xs.find? (fun x => (next x).isNone) = xs.getLast? := by
  induction xs generalizing p with
  | nil => rfl
  | cons x xs ih =>
    cases xs with
    | nil =>
      have hx : next x = none := h.2
      rw [List.find?_cons, hx]
      rfl
    | cons y ys =>
      have hx : next x = some y := h.2.1
      have hrest : Chain next (some y) (y :: ys) := ⟨rfl, h.2.2⟩
      rw [List.find?_cons, hx, List.getLast?_cons_cons]
      exact ih hrest

/-- The loop that takes a node out of a list behind its first node: the new links, and whether it was
found. It goes on to the end of the list, or stops. -/
def unlink (t : α) (stop : Bool) : Nat → (α → Option α) → Option α →
    Option ((α → Option α) × Bool)
  | _, next, none => some (next, false)
  | 0, _, some _ => none
  | n + 1, next, some x =>
    if next x = some t then
      if stop then some (Function.update next x (next t), true)
      else (unlink t stop n (Function.update next x (next t)) (next t)).map fun r => (r.1, true)
    else unlink t stop n next (next x)

theorem unlink_not_mem (h : Chain next p xs) (ht : t ∉ xs.tail) (stop : Bool) {n : Nat}
    (hn : xs.length ≤ n) : unlink t stop n next p = some (next, false) := by
  induction xs generalizing p n with
  | nil =>
    cases h
    cases n <;> rfl
  | cons x xs ih =>
    obtain ⟨rfl, hxs⟩ := h
    cases n with
    | zero => cases hn
    | succ n =>
      rw [unlink, if_neg]
      · exact ih hxs (fun hmem => ht (List.mem_of_mem_tail hmem)) (Nat.le_of_succ_le_succ hn)
      · intro heq
        cases xs with
        | nil =>
          rw [heq] at hxs
          cases hxs
        | cons y ys =>
          rw [heq] at hxs
          cases hxs.1
          exact ht (.head _)

theorem unlink_chain (h : Chain next p (as ++ y :: t :: bs)) (stop : Bool) {n : Nat}
    (hn : (as ++ y :: t :: bs).length ≤ n) :
    unlink t stop n next p = some (Function.update next y (next t), true) := by
  have hnd := Chain.nodup h
  induction as generalizing p n with
  | nil =>
    obtain ⟨rfl, hyt, hbs⟩ := h
    have hyt : next y = some t := hyt
    have hnd : (y :: t :: bs).Nodup := hnd
    cases n with
    | zero => cases hn
    | succ n =>
      rw [unlink, if_pos hyt]
      cases stop with
      | true => rfl
      | false =>
        have hrest := hbs.update (fun hy => (List.nodup_cons.1 hnd).1 (.tail _ hy)) (next t)
        have htail : t ∉ bs.tail := fun hmem =>
          (List.nodup_cons.1 (List.nodup_cons.1 hnd).2).1 (List.mem_of_mem_tail hmem)
        have hlen : bs.length ≤ n := by
          simp only [List.nil_append, List.length_cons] at hn
          omega
        rw [if_neg Bool.false_ne_true, unlink_not_mem hrest htail false hlen]
        rfl
  | cons a as ih =>
    obtain ⟨rfl, has⟩ := h
    have hnd' := (List.nodup_cons.1 hnd).2
    cases n with
    | zero => cases hn
    | succ n =>
      rw [unlink, if_neg]
      · exact ih has (Nat.le_of_succ_le_succ hn) hnd'
      · intro heq
        rw [heq] at has
        cases as with
        | nil =>
          cases has.1
          exact (List.nodup_cons.1 hnd').1 (.head _)
        | cons b as =>
          cases has.1
          refine (List.nodup_cons.1 hnd').1 (List.mem_append_right _ (.tail _ (.head _)))

end

end Embedded
