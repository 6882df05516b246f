import NumakerMA35D1.Lib.Run
import NumakerMA35D1.UsbHost.Ehci
import NumakerMA35D1.UsbHost.EhciIso

/-!
# The periodic tree of the EHCI driver

Each entry of the periodic frame list is a chain of links through the heads of eleven intervals, each head with the
interrupt queue heads behind it; the chains share their ends. Setting up leaves the heads alone (`initTree_ok`).
Linking and unlinking a queue head change one link, and the list behind its head (`TreeOf.link`, `TreeOf.unlink`); a
frame has the queue heads of the intervals that it is an entry of (`TreeOf.frame_chain`).

Reference: `_ehci.c_:149 init_periodic_frame_list`, `_ehci.c_:324 move_qh_to_remove_list`, `_ehci.c_:745
ehci_int_xfer`.
-/

namespace NumakerMA35D1.UsbHost

open Embedded

/-- There are frames. -/
scoped instance neZeroFrames : NeZero FL_SIZE := ⟨by decide⟩

/-! ## The tree -/

/-- A queue head of the tree: that of an interval, or that of an endpoint. Reference: `_ehci.c_:22 _Iqh`. -/
inductive TreeNode
  | iqh (i : Fin NUM_IQH)
  | qh (q : Unit64)
deriving DecidableEq

/-- The frame list and the horizontal links. Reference: `_ehci.c_:19 _PFList`. -/
structure PeriodicTree where
  pfList : Fin FL_SIZE → Option TreeNode
  hlink : TreeNode → Option TreeNode

/-- A head is put at the end of the chain from a node, when it is not in it; none where the links do not end.
Reference: `_ehci.c_:182 init_periodic_frame_list`. -/
def chainIqh (i : Fin NUM_IQH) : Nat → (TreeNode → Option TreeNode) → TreeNode → Option (TreeNode → Option TreeNode)
  | 0, _, _ => none
  | n + 1, hlink, p =>
    if p = .iqh i then some hlink
    else
      match hlink p with
      | none => some (Function.update hlink p (some (.iqh i)))
      | some p => chainIqh i n hlink p

/-- An entry of the frame list gets a head. Reference: `_ehci.c_:173 init_periodic_frame_list`. -/
def chainFrame (i : Fin NUM_IQH) (t : PeriodicTree) (idx : Fin FL_SIZE) : Option PeriodicTree :=
  match t.pfList idx with
  | none => some { t with pfList := Function.update t.pfList idx (some (.iqh i)) }
  | some p => (chainIqh i (NUM_IQH + 1) t.hlink p).map fun hlink => { t with hlink := hlink }

/-- The entries of an interval. Reference: `_ehci.c_:171 init_periodic_frame_list`. -/
def iqhFrames (i : Fin NUM_IQH) : List (Fin FL_SIZE) :=
  (List.range (FL_SIZE / 2 ^ i.val)).map fun k => Fin.ofNat FL_SIZE (2 ^ i.val - 1 + k * 2 ^ i.val)

/-- The head of an interval is put in its entries. Reference: `_ehci.c_:161 init_periodic_frame_list`. -/
def addIqh (t : PeriodicTree) (i : Fin NUM_IQH) : Option PeriodicTree :=
  (iqhFrames i).foldlM (chainFrame i) { t with hlink := Function.update t.hlink (.iqh i) none }

/-- Reference: `_ehci.c_:149 init_periodic_frame_list`. -/
def initPeriodicFrameList : Option PeriodicTree :=
  (List.finRange NUM_IQH).reverse.foldlM addIqh ⟨fun _ => none, fun _ => none⟩

/-- A queue head is put behind the head of its interval. Reference: `_ehci.c_:821 ehci_int_xfer`. -/
def PeriodicTree.link (t : PeriodicTree) (q : Unit64) (i : Fin NUM_IQH) : PeriodicTree :=
  { t with hlink := Function.update (Function.update t.hlink (.qh q) (t.hlink (.iqh i))) (.iqh i) (some (.qh q)) }

/-- A queue head is searched from the head of the longest interval on, and taken out. Reference: `_ehci.c_:366
move_qh_to_remove_list`. -/
def PeriodicTree.unlink (t : PeriodicTree) (q : Unit64) : Option (PeriodicTree × Bool) :=
  (Embedded.unlink (.qh q) true (NUM_IQH + MEM_POOL_UNIT_NUM) t.hlink (some (.iqh (Fin.last 10)))).map fun r =>
    ({ t with hlink := r.1 }, r.2)

/-! ## What it should be -/

/-- The longest interval whose entries a frame is one of. -/
def topIqh (idx : Nat) : Fin NUM_IQH :=
  ((List.finRange NUM_IQH).reverse.find? fun i => decide (2 ^ i.val ∣ idx + 1)).getD 0

/-- The nodes from a head on: the heads down to the first, each with its queue heads. -/
def nodesFrom (iqh : Fin NUM_IQH → List Unit64) (i : Fin NUM_IQH) : List TreeNode :=
  ((List.finRange NUM_IQH).reverse.filter fun j => decide (j ≤ i)).flatMap fun j => .iqh j :: (iqh j).map .qh

/-- The links make up the lists behind the heads. -/
structure TreeOf (t : PeriodicTree) (iqh : Fin NUM_IQH → List Unit64) : Prop where
  frame : ∀ idx, t.pfList idx = some (.iqh (topIqh idx))
  chain : Chain t.hlink (some (.iqh (Fin.last 10))) (nodesFrom iqh (Fin.last 10))

section

variable {i j : Fin NUM_IQH} {idx : Nat}

/-- A frame has the intervals up to its longest. -/
theorem le_topIqh : i ≤ topIqh idx ↔ 2 ^ i.val ∣ idx + 1 := by
  have hsome : ((List.finRange NUM_IQH).reverse.find? fun i => decide (2 ^ i.val ∣ idx + 1)).isSome := by
    rw [List.find?_isSome]
    exact ⟨0, List.mem_reverse.2 (List.mem_finRange 0), by simp⟩
  obtain ⟨k, hk⟩ := Option.isSome_iff_exists.1 hsome
  have htop : topIqh idx = k := by rw [topIqh, hk]; rfl
  have hdvd : 2 ^ k.val ∣ idx + 1 :=
    of_decide_eq_true (List.find?_some (p := fun i : Fin NUM_IQH => decide (2 ^ i.val ∣ idx + 1)) hk)
  rw [htop]
  constructor
  · intro hle
    exact (pow_dvd_pow 2 hle).trans hdvd
  · intro hi
    by_contra hlt
    -- what is before it in the search does not divide
    obtain ⟨-, as, bs, hsplit, hnot⟩ := List.find?_eq_some_iff_append.1 hk
    have hsorted : (List.finRange NUM_IQH).reverse.Pairwise (· > ·) := by decide
    have hmem : i ∈ as ++ k :: bs := hsplit ▸ List.mem_reverse.2 (List.mem_finRange i)
    rw [hsplit] at hsorted
    rcases List.mem_append.1 hmem with has | hbs
    · have hno := hnot i has
      rw [decide_eq_true hi] at hno
      cases hno
    · rcases List.mem_cons.1 hbs with rfl | hbs
      · exact hlt (le_refl i)
      · have hgt := (List.pairwise_cons.1 (List.pairwise_append.1 hsorted).2.1).1 i hbs
        exact hlt (le_of_lt hgt)

theorem two_pow_iqh (i : Fin NUM_IQH) :
    2 ^ i.val * 2 ^ (10 - i.val) = 1024 ∧ FL_SIZE / 2 ^ i.val = 2 ^ (10 - i.val) := by
  have hi : i.val < 11 := i.isLt
  have hpow : 2 ^ i.val * 2 ^ (10 - i.val) = 1024 := by
    rw [← pow_add, Nat.add_sub_cancel' (by omega)]
    rfl
  exact ⟨hpow, Nat.div_eq_of_eq_mul_right (Nat.two_pow_pos _) hpow.symm⟩

/-- The entries of an interval, each once. -/
theorem mem_iqhFrames {idx : Fin FL_SIZE} : idx ∈ iqhFrames i ↔ i ≤ topIqh idx := by
  obtain ⟨hpow, hdiv⟩ := two_pow_iqh i
  have hpos : 0 < 2 ^ i.val := Nat.two_pow_pos _
  have hidx : idx.val < 1024 := idx.isLt
  rw [le_topIqh, iqhFrames, List.mem_map, hdiv]
  constructor
  · rintro ⟨k, hk, rfl⟩
    have hk : k + 1 ≤ 2 ^ (10 - i.val) := List.mem_range.1 hk
    have hle : 2 ^ i.val * (k + 1) ≤ 1024 := hpow ▸ Nat.mul_le_mul_left _ hk
    have hval : 2 ^ i.val - 1 + k * 2 ^ i.val + 1 = 2 ^ i.val * (k + 1) := by
      rw [Nat.mul_add, Nat.mul_one, Nat.mul_comm k]
      omega
    have hlt : 2 ^ i.val - 1 + k * 2 ^ i.val < 1024 := by omega
    rw [Fin.val_ofNat, Nat.mod_eq_of_lt hlt, hval]
    exact Nat.dvd_mul_right _ _
  · rintro ⟨m, hm⟩
    have hmpos : 0 < m := by
      rcases Nat.eq_zero_or_pos m with rfl | hpos
      · omega
      · exact hpos
    refine ⟨m - 1, List.mem_range.2 ?_, Fin.ext ?_⟩
    · by_contra hlarge
      have hle : 2 ^ i.val * 2 ^ (10 - i.val) < 2 ^ i.val * m := Nat.mul_lt_mul_of_pos_left (by omega) hpos
      rw [hpow, ← hm] at hle
      omega
    · have hval : 2 ^ i.val - 1 + (m - 1) * 2 ^ i.val = idx.val := by
        have hmul : (m - 1) * 2 ^ i.val = 2 ^ i.val * m - 2 ^ i.val := by
          rw [Nat.sub_mul, Nat.one_mul, Nat.mul_comm]
        have hge : 2 ^ i.val ≤ 2 ^ i.val * m := Nat.le_mul_of_pos_right _ hmpos
        rw [hmul, ← hm]
        rw [← hm] at hge
        omega
      rw [hval, Fin.val_ofNat, Nat.mod_eq_of_lt hidx]

/-! ## Setting up -/

/-- The head before one. -/
def prevIqh (i : Fin NUM_IQH) : Fin NUM_IQH := ⟨i.val - 1, lt_of_le_of_lt (Nat.sub_le ..) i.isLt⟩

/-- The links when the heads from `n` on are in the frame list, and the next one is behind them or not. -/
def setupLinks (n : Nat) (linked : Bool) : TreeNode → Option TreeNode
  | .iqh j => if n < j.val ∨ n = j.val ∧ linked = true then some (.iqh (prevIqh j)) else none
  | .qh _ => none

/-- The entry of a frame when the heads from `n` on are in the frame list. -/
def setupFrame (n idx : Nat) : Option TreeNode :=
  if n ≤ (topIqh idx).val then some (.iqh (topIqh idx)) else none

/-- The walk down from a head in the frame list ends at the new one. -/
theorem chainIqh_setup (linked : Bool) {n : Nat} (hij : i.val < j.val) (hn : j.val - i.val + 1 ≤ n) :
    chainIqh i n (setupLinks (i.val + 1) linked) (.iqh j) = some (setupLinks (i.val + 1) true) := by
  induction n generalizing j with
  | zero => omega
  | succ n ih =>
    have hne : TreeNode.iqh j ≠ .iqh i := by
      intro heq
      cases heq
      omega
    rw [chainIqh, if_neg hne]
    by_cases hnext : i.val + 1 < j.val
    · have hlink : setupLinks (i.val + 1) linked (.iqh j) = some (.iqh (prevIqh j)) := if_pos (Or.inl hnext)
      have hprev : (prevIqh j).val = j.val - 1 := rfl
      rw [hlink]
      exact ih (by omega) (by omega)
    · have heq : i.val + 1 = j.val := by omega
      have hprev : prevIqh j = i := Fin.ext (show j.val - 1 = i.val by omega)
      cases linked with
      | false =>
        have hlink : setupLinks (i.val + 1) false (.iqh j) = none := if_neg (by simp [hnext])
        rw [hlink]
        refine congrArg some (funext fun x => ?_)
        by_cases hx : x = .iqh j
        · subst hx
          rw [Function.update_self]
          show some (TreeNode.iqh i) = if _ then some (TreeNode.iqh (prevIqh j)) else none
          rw [if_pos (Or.inr ⟨heq, rfl⟩), hprev]
        · rw [Function.update_of_ne hx]
          cases x with
          | qh q => rfl
          | iqh k =>
            have hk : i.val + 1 ≠ k.val := fun h => hx (congrArg TreeNode.iqh (Fin.ext (h.symm.trans heq)))
            simp [setupLinks, hk]
      | true =>
        have hlink : setupLinks (i.val + 1) true (.iqh j) = some (.iqh i) := by
          show (if _ then some (TreeNode.iqh (prevIqh j)) else none) = _
          rw [if_pos (Or.inr ⟨heq, rfl⟩), hprev]
        rw [hlink]
        dsimp only
        cases n with
        | zero => omega
        | succ n => rw [chainIqh, if_pos rfl]

/-- The tree while a head is put in its entries: those of `done` have it. -/
structure SettingUp (i : Fin NUM_IQH) (t : PeriodicTree) (done : List (Fin FL_SIZE)) : Prop where
  frame : ∀ idx, t.pfList idx = if idx ∈ done then setupFrame i.val idx else setupFrame (i.val + 1) idx
  hlink : t.hlink = setupLinks (i.val + 1) (decide (∃ idx ∈ done, i < topIqh idx.val))

theorem SettingUp.chainFrame {t : PeriodicTree} {done : List (Fin FL_SIZE)} (h : SettingUp i t done)
    {idx : Fin FL_SIZE} (hidx : i ≤ topIqh idx) (hnew : idx ∉ done) :
    ∃ t', UsbHost.chainFrame i t idx = some t' ∧ SettingUp i t' (done ++ [idx]) := by
  have hentry : t.pfList idx = setupFrame (i.val + 1) idx := by rw [h.frame, if_neg hnew]
  have hle : i.val ≤ (topIqh idx).val := hidx
  rw [UsbHost.chainFrame, hentry]
  by_cases htop : i.val + 1 ≤ (topIqh idx).val
  · have hlt : i < topIqh idx := htop
    have hfuel : (topIqh idx).val - i.val + 1 ≤ NUM_IQH + 1 := by
      have := (topIqh idx).isLt
      omega
    rw [setupFrame, if_pos htop]
    dsimp only
    rw [h.hlink, chainIqh_setup _ hlt hfuel]
    refine ⟨_, rfl, fun x => ?_, ?_⟩
    · show t.pfList x = _
      rw [h.frame]
      by_cases hx : x = idx
      · subst hx
        rw [if_neg hnew, if_pos (List.mem_append_right _ List.mem_cons_self), setupFrame, setupFrame, if_pos htop,
          if_pos hle]
      · simp [hx]
    · have hin : ∃ x ∈ done ++ [idx], i < topIqh x.val := ⟨idx, List.mem_append_right _ List.mem_cons_self, hlt⟩
      rw [decide_eq_true hin]
  · have heq : topIqh idx = i := Fin.ext (by omega)
    rw [setupFrame, if_neg htop]
    refine ⟨_, rfl, fun x => ?_, ?_⟩
    · show Function.update t.pfList idx (some (.iqh i)) x = _
      by_cases hx : x = idx
      · subst hx
        rw [Function.update_self, if_pos (List.mem_append_right _ List.mem_cons_self), setupFrame, heq,
          if_pos (Nat.le_refl _)]
      · rw [Function.update_of_ne hx, h.frame]
        simp [hx]
    · show t.hlink = _
      rw [h.hlink]
      have hsame : (∃ x ∈ done ++ [idx], i < topIqh x.val) ↔ ∃ x ∈ done, i < topIqh x.val := by
        constructor
        · rintro ⟨x, hx, hlt⟩
          rcases List.mem_append.1 hx with hin | hone
          · exact ⟨x, hin, hlt⟩
          · rw [List.mem_singleton.1 hone, heq] at hlt
            exact absurd hlt (lt_irrefl i)
        · rintro ⟨x, hx, hlt⟩
          exact ⟨x, List.mem_append_left _ hx, hlt⟩
      rw [decide_eq_decide.2 hsame]

/-- The entries of the interval, one after another. -/
theorem SettingUp.foldlM {t : PeriodicTree} {done frames : List (Fin FL_SIZE)} (h : SettingUp i t done)
    (hframes : ∀ idx ∈ frames, i ≤ topIqh idx.val) (hnodup : (done ++ frames).Nodup) :
    ∃ t', frames.foldlM (UsbHost.chainFrame i) t = some t' ∧ SettingUp i t' (done ++ frames) := by
  induction frames generalizing t done with
  | nil =>
    rw [List.append_nil]
    exact ⟨t, rfl, h⟩
  | cons idx frames ih =>
    obtain ⟨hidx, hframes⟩ := List.forall_mem_cons.1 hframes
    have hnew : idx ∉ done := fun hin =>
      (List.nodup_append'.1 hnodup).2.2 hin List.mem_cons_self
    obtain ⟨t₁, hstep, hset⟩ := h.chainFrame hidx hnew
    have hassoc : done ++ idx :: frames = done ++ [idx] ++ frames := by simp
    rw [hassoc] at hnodup ⊢
    obtain ⟨t', hfold, hset'⟩ := ih hset hframes hnodup
    refine ⟨t', ?_, hset'⟩
    rw [List.foldlM_cons, hstep]
    exact hfold

theorem iqhFrames_nodup : (iqhFrames i).Nodup := by
  obtain ⟨hpow, hdiv⟩ := two_pow_iqh i
  have hpos : 0 < 2 ^ i.val := Nat.two_pow_pos _
  have hlt : ∀ k ∈ List.range (FL_SIZE / 2 ^ i.val), 2 ^ i.val - 1 + k * 2 ^ i.val < 1024 := by
    intro k hk
    have hk : k + 1 ≤ 2 ^ (10 - i.val) := hdiv ▸ List.mem_range.1 hk
    have hle : 2 ^ i.val * (k + 1) ≤ 1024 := hpow ▸ Nat.mul_le_mul_left _ hk
    rw [Nat.mul_add, Nat.mul_one, Nat.mul_comm (2 ^ i.val) k] at hle
    omega
  refine List.Nodup.map_on (fun k hk l hl heq => ?_) List.nodup_range
  have hval := congrArg Fin.val heq
  rw [Fin.val_ofNat, Fin.val_ofNat, Nat.mod_eq_of_lt (hlt k hk), Nat.mod_eq_of_lt (hlt l hl)] at hval
  exact Nat.eq_of_mul_eq_mul_right hpos (Nat.add_left_cancel hval)

/-- The tree with the heads from `n` on. -/
def setupTree (n : Nat) : PeriodicTree := ⟨fun idx => setupFrame n idx, setupLinks n false⟩

/-- One more head. -/
theorem addIqh_setup (i : Fin NUM_IQH) : addIqh (setupTree (i.val + 1)) i = some (setupTree i.val) := by
  have hstart : SettingUp i { setupTree (i.val + 1) with
      hlink := Function.update (setupTree (i.val + 1)).hlink (.iqh i) none } [] := by
    refine ⟨fun idx => (if_neg List.not_mem_nil).symm, funext fun x => ?_⟩
    have hnone : decide (∃ idx ∈ ([] : List (Fin FL_SIZE)), i < topIqh idx.val) = false := by simp
    rw [hnone]
    show Function.update (setupLinks (i.val + 1) false) (.iqh i) none x = _
    by_cases hx : x = .iqh i
    · subst hx
      rw [Function.update_self]
      exact (if_neg (by simp)).symm
    · rw [Function.update_of_ne hx]
  have hframes : ∀ idx ∈ iqhFrames i, i ≤ topIqh idx := fun idx hidx => mem_iqhFrames.1 hidx
  obtain ⟨t', hfold, hset⟩ := hstart.foldlM hframes (by rw [List.nil_append]; exact iqhFrames_nodup)
  rw [addIqh, hfold]
  rw [List.nil_append] at hset
  obtain ⟨pfList, hlink⟩ := t'
  refine congrArg some ?_
  have hframe : pfList = (setupTree i.val).pfList := by
    funext idx
    refine (hset.frame idx).trans ?_
    split
    · rfl
    · rename_i hnot
      rw [mem_iqhFrames] at hnot
      have hlt : ¬ i.val ≤ (topIqh idx).val := hnot
      show setupFrame (i.val + 1) idx = setupFrame i.val idx
      rw [setupFrame, setupFrame, if_neg hlt, if_neg (by omega)]
  have hlinks : hlink = (setupTree i.val).hlink := by
    refine hset.hlink.trans (funext fun x => ?_)
    cases x with
    | qh q => rfl
    | iqh j =>
      -- the head before the new one has been passed, where there is one
      have hseen : j.val = i.val + 1 → ∃ idx ∈ iqhFrames i, i < topIqh idx.val := by
        intro hj
        have hj' : j.val < 11 := j.isLt
        have hlt : 2 ^ j.val - 1 < 1024 := by
          have hle : 2 ^ j.val ≤ 2 ^ 10 := Nat.pow_le_pow_right (by decide) (by omega)
          omega
        have hpos : 0 < 2 ^ j.val := Nat.two_pow_pos _
        have htop : j ≤ topIqh (2 ^ j.val - 1) := by
          rw [le_topIqh, Nat.sub_add_cancel hpos]
        have hij : i < topIqh (2 ^ j.val - 1) := lt_of_lt_of_le (show i.val < j.val by omega) htop
        exact ⟨⟨2 ^ j.val - 1, hlt⟩, mem_iqhFrames.2 (le_of_lt hij), hij⟩
      show (if i.val + 1 < j.val ∨ i.val + 1 = j.val ∧ _ then _ else _) =
        if i.val < j.val ∨ i.val = j.val ∧ _ then _ else _
      by_cases hj : j.val = i.val + 1
      · rw [if_pos (Or.inr ⟨hj.symm, decide_eq_true (hseen hj)⟩), if_pos (Or.inl (by omega))]
      · by_cases hlt : i.val + 1 < j.val
        · rw [if_pos (Or.inl hlt), if_pos (Or.inl (by omega))]
        · rw [if_neg (by omega), if_neg (by simp; omega)]
  rw [hframe, hlinks]

theorem foldlM_setup (i : Fin NUM_IQH) (is : List (Fin NUM_IQH)) :
    (i :: is).foldlM addIqh (setupTree (i.val + 1)) = is.foldlM addIqh (setupTree i.val) := by
  rw [List.foldlM_cons, addIqh_setup]
  rfl

/-- Setting up ends, with the heads alone in the tree. -/
theorem initTree_ok : initPeriodicFrameList = some (setupTree 0) ∧ TreeOf (setupTree 0) fun _ => [] := by
  have hstart : (⟨fun _ => none, fun _ => none⟩ : PeriodicTree) = setupTree 11 := by
    refine congrArg₂ PeriodicTree.mk (funext fun idx => ?_) (funext fun x => ?_)
    · have htop : (topIqh idx).val < 11 := (topIqh idx).isLt
      exact (if_neg (by omega)).symm
    · cases x with
      | qh q => rfl
      | iqh j =>
        have hj : j.val < 11 := j.isLt
        exact (if_neg (by omega)).symm
  have hlist : (List.finRange NUM_IQH).reverse = [10, 9, 8, 7, 6, 5, 4, 3, 2, 1, 0] := by decide
  refine ⟨?_, fun idx => ?_, ?_⟩
  · rw [initPeriodicFrameList, hlist, hstart]
    exact (foldlM_setup 10 _).trans <| (foldlM_setup 9 _).trans <| (foldlM_setup 8 _).trans <|
      (foldlM_setup 7 _).trans <| (foldlM_setup 6 _).trans <| (foldlM_setup 5 _).trans <| (foldlM_setup 4 _).trans <|
      (foldlM_setup 3 _).trans <| (foldlM_setup 2 _).trans <| (foldlM_setup 1 _).trans (foldlM_setup 0 [])
  · show setupFrame 0 idx = some (.iqh (topIqh idx))
    rw [setupFrame, if_pos (Nat.zero_le _)]
  · have hnodes : nodesFrom (fun _ => []) (Fin.last 10) = [10, 9, 8, 7, 6, 5, 4, 3, 2, 1, 0].map TreeNode.iqh := by
      decide
    rw [hnodes]
    exact ⟨rfl, rfl, rfl, rfl, rfl, rfl, rfl, rfl, rfl, rfl, rfl, rfl⟩

end

/-! ## Linking and unlinking -/

/-- A head with its queue heads. -/
def treeBlock (iqh : Fin NUM_IQH → List Unit64) (j : Fin NUM_IQH) : List TreeNode := .iqh j :: (iqh j).map .qh

section

variable {t : PeriodicTree} {iqh : Fin NUM_IQH → List Unit64} {i j k : Fin NUM_IQH} {q : Unit64}

theorem heads_split : ∀ k : Fin NUM_IQH, ∃ as bs : List (Fin NUM_IQH),
    ((List.finRange NUM_IQH).reverse.filter fun j => decide (j ≤ Fin.last 10)) = as ++ k :: bs ∧
      ((List.finRange NUM_IQH).reverse.filter fun j => decide (j ≤ k)) = k :: bs ∧ k ∉ as ∧ k ∉ bs := by
  intro k
  refine ⟨(List.finRange NUM_IQH).reverse.filter fun j => decide (k < j),
    (List.finRange NUM_IQH).reverse.filter fun j => decide (j < k), ?_, ?_, ?_, ?_⟩
  · revert k
    decide
  · revert k
    decide
  · simp
  · simp

/-- The nodes before the queue heads of an interval, and those after them. -/
theorem nodes_split (iqh : Fin NUM_IQH → List Unit64) (k : Fin NUM_IQH) : ∃ before after, ∀ l,
    nodesFrom (Function.update iqh k l) (Fin.last 10) = before ++ .iqh k :: (l.map .qh ++ after) ∧
      nodesFrom (Function.update iqh k l) k = .iqh k :: (l.map .qh ++ after) := by
  obtain ⟨as, bs, hall, hfrom, has, hbs⟩ := heads_split k
  refine ⟨as.flatMap (treeBlock iqh), bs.flatMap (treeBlock iqh), fun l => ?_⟩
  have hblock : ∀ js : List (Fin NUM_IQH), k ∉ js →
      js.flatMap (treeBlock (Function.update iqh k l)) = js.flatMap (treeBlock iqh) := by
    intro js hjs
    refine List.flatMap_congr fun j hj => ?_
    have hne : j ≠ k := fun heq => hjs (heq ▸ hj)
    rw [treeBlock, treeBlock, Function.update_of_ne hne]
  have hk : treeBlock (Function.update iqh k l) k = .iqh k :: l.map .qh := by
    rw [treeBlock, Function.update_self]
  have htail : (k :: bs).flatMap (treeBlock (Function.update iqh k l)) =
      .iqh k :: (l.map .qh ++ bs.flatMap (treeBlock iqh)) := by
    rw [List.flatMap_cons, hk, hblock bs hbs]
    rfl
  constructor
  · show List.flatMap (treeBlock _) _ = _
    rw [hall, List.flatMap_append, hblock as has, htail]
  · show List.flatMap (treeBlock _) _ = _
    rw [hfrom, htail]

theorem mem_nodesFrom {x : TreeNode} : x ∈ nodesFrom iqh i ↔ ∃ j ≤ i, x = .iqh j ∨ ∃ q ∈ iqh j, .qh q = x := by
  simp [nodesFrom]

/-- A new queue head is put behind its head. -/
theorem TreeOf.link (h : TreeOf t iqh) (hq : ∀ j, q ∉ iqh j) (k : Fin NUM_IQH) :
    TreeOf (t.link q k) (Function.update iqh k (q :: iqh k)) := by
  obtain ⟨before, after, hsplit⟩ := nodes_split iqh k
  have hold := (hsplit (iqh k)).1
  rw [Function.update_eq_self] at hold
  have hchain := h.chain
  rw [hold] at hchain
  have hnodup := hchain.nodup
  have hfresh : TreeNode.qh q ∉ before ++ .iqh k :: ((iqh k).map .qh ++ after) := by
    rw [← hold, mem_nodesFrom]
    rintro ⟨j, -, hx | ⟨p, hp, hx⟩⟩
    · cases hx
    · cases hx
      exact hq j hp
  obtain ⟨hbefore, hrest, hdisj⟩ := List.nodup_append'.1 hnodup
  have hkbefore : TreeNode.iqh k ∉ before := fun hin => hdisj hin List.mem_cons_self
  have hkafter : TreeNode.iqh k ∉ (iqh k).map TreeNode.qh ++ after := (List.nodup_cons.1 hrest).1
  have hqbefore : TreeNode.qh q ∉ before := fun hin => hfresh (List.mem_append_left _ hin)
  have hqafter : TreeNode.qh q ∉ (iqh k).map TreeNode.qh ++ after := fun hin =>
    hfresh (List.mem_append_right _ (List.mem_cons_of_mem _ hin))
  obtain ⟨r, hleft, hr, hright⟩ := hchain.split
  have hinsert := Links.insert hright hqafter hkafter TreeNode.noConfusion
  refine ⟨h.frame, ?_⟩
  rw [(hsplit (q :: iqh k)).1]
  refine ((hleft.update hqbefore _).update hkbefore _).append ⟨hr, ?_⟩
  show Links (Function.update (Function.update t.hlink (.qh q) (t.hlink (.iqh k))) (.iqh k) (some (.qh q)))
    (Function.update (Function.update t.hlink (.qh q) (t.hlink (.iqh k))) (.iqh k) (some (.qh q)) (.iqh k)) _ _
  rw [Function.update_self]
  exact hinsert

/-- The walk over the tree has steps enough. -/
theorem TreeOf.length_le (h : TreeOf t iqh) :
    (nodesFrom iqh (Fin.last 10)).length ≤ NUM_IQH + MEM_POOL_UNIT_NUM := by
  let code : TreeNode → Fin NUM_IQH ⊕ Unit64 := fun x => TreeNode.rec Sum.inl Sum.inr x
  have hinj : Function.Injective code := by
    rintro (a | a) (b | b) heq
    · exact congrArg TreeNode.iqh (Sum.inl.inj heq)
    · cases heq
    · cases heq
    · exact congrArg TreeNode.qh (Sum.inr.inj heq)
  have hnodup := (List.nodup_map_iff hinj).2 h.chain.nodup
  have hcard := hnodup.length_le_card
  rwa [List.length_map, Fintype.card_sum, Fintype.card_fin, Fintype.card_fin] at hcard

/-- A queue head is taken out. -/
theorem TreeOf.unlink (h : TreeOf t iqh) (hq : q ∈ iqh k) : ∃ t', t.unlink q = some (t', true) ∧
    TreeOf t' (Function.update iqh k ((iqh k).erase q)) := by
  obtain ⟨before, after, hsplit⟩ := nodes_split iqh k
  obtain ⟨xs, ys, hxs, hlist, herase⟩ := List.exists_erase_eq hq
  have hold := (hsplit (iqh k)).1
  rw [Function.update_eq_self] at hold
  -- the node before it is the head or a queue head
  obtain ⟨as, y, hpred⟩ : ∃ as y, TreeNode.iqh k :: xs.map TreeNode.qh = as ++ [y] :=
    ⟨_, _, (List.dropLast_append_getLast (List.cons_ne_nil _ _)).symm⟩
  have hnodes : nodesFrom iqh (Fin.last 10) = (before ++ as) ++ y :: .qh q :: (ys.map .qh ++ after) := by
    have hcons : TreeNode.iqh k :: ((xs ++ q :: ys).map TreeNode.qh ++ after) =
        (TreeNode.iqh k :: xs.map TreeNode.qh) ++ .qh q :: (ys.map .qh ++ after) := by simp
    rw [hold, hlist, hcons, hpred]
    simp
  have hnew : nodesFrom (Function.update iqh k ((iqh k).erase q)) (Fin.last 10) =
      (before ++ as) ++ y :: (ys.map .qh ++ after) := by
    have hcons : TreeNode.iqh k :: ((xs ++ ys).map TreeNode.qh ++ after) =
        (TreeNode.iqh k :: xs.map TreeNode.qh) ++ (ys.map .qh ++ after) := by simp
    rw [(hsplit _).1, herase, hcons, hpred]
    simp
  have hchain := h.chain
  have hlen := h.length_le
  rw [hnodes] at hchain hlen
  refine ⟨{ t with hlink := Function.update t.hlink y (t.hlink (.qh q)) }, ?_, h.frame, ?_⟩
  · rw [PeriodicTree.unlink, unlink_chain hchain true hlen]
    rfl
  · rw [hnew]
    exact Links.remove hchain hchain.nodup

/-- One that is not linked is not found. -/
theorem TreeOf.unlink_none (h : TreeOf t iqh) (hq : ∀ j, q ∉ iqh j) : t.unlink q = some (t, false) := by
  have hnot : TreeNode.qh q ∉ (nodesFrom iqh (Fin.last 10)).tail := by
    intro hin
    obtain ⟨j, -, hx | ⟨p, hp, hx⟩⟩ := mem_nodesFrom.1 (List.mem_of_mem_tail hin)
    · cases hx
    · cases hx
      exact hq j hp
  rw [PeriodicTree.unlink, unlink_not_mem h.chain hnot true h.length_le]
  rfl

/-- The chain of a frame. -/
theorem TreeOf.frame_chain (h : TreeOf t iqh) (idx : Fin FL_SIZE) :
    Chain t.hlink (t.pfList idx) (nodesFrom iqh (topIqh idx)) := by
  obtain ⟨before, after, hsplit⟩ := nodes_split iqh (topIqh idx)
  obtain ⟨hall, hfrom⟩ := hsplit (iqh (topIqh idx))
  rw [Function.update_eq_self] at hall hfrom
  have hchain := h.chain
  rw [hall] at hchain
  obtain ⟨r, -, hr, hright⟩ := hchain.split
  rw [hfrom, h.frame]
  exact ⟨rfl, hright⟩

end

end NumakerMA35D1.UsbHost
