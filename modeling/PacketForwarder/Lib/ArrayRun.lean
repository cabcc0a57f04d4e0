import Mathlib

/-!
# Loads and stores

A computation that loads from one array and stores to another, with every index it
touches.  It may stop before its end; what it has touched till then is kept.

* `ArrayRun` — the indices loaded from, the stores in their order, and the result, if the
  end is reached;
* `Within` — every index is in bounds, whatever has been loaded;
* `Fills` — the stores fill the cells from some index on, one after the other, with the
  given elements;
* `buffer` — what an array holds after the stores (`Fills.buffer_eq`).
-/

/-- What a computation does to two arrays, and its result, if it reaches its end. -/
structure ArrayRun (β γ : Type) where
  /-- The indices that were loaded from, in order. -/
  loads : List ℕ
  /-- The stores that were made, in their order. -/
  stores : List (ℕ × β)
  /-- The result, if there is one. -/
  result : Option γ
  deriving DecidableEq

namespace ArrayRun

variable {α β γ δ : Type}

instance : Monad (ArrayRun β) where
  pure a := ⟨[], [], some a⟩
  bind r f :=
    match r.result with
    | none => ⟨r.loads, r.stores, none⟩
    | some a => ⟨r.loads ++ (f a).loads, r.stores ++ (f a).stores, (f a).result⟩

/-- Load from index `i`; outside the array there is only the default. -/
def load (input : List α) (i : ℕ) (d : α) : ArrayRun β α := ⟨[i], [], some (input.getD i d)⟩

/-- Store an element to index `i` of the other array. -/
def store (i : ℕ) (x : β) : ArrayRun β Unit := ⟨[], [(i, x)], some ()⟩

/-- Go on with a value, or stop. -/
def ofOption (a : Option γ) : ArrayRun β γ := ⟨[], [], a⟩

/-- The iterations `i`, …, `i + n - 1` of a loop. -/
def iterate (body : ℕ → ArrayRun β Unit) (i : ℕ) : ℕ → ArrayRun β Unit
  | 0 => pure ()
  | n + 1 => do
    body i
    iterate body (i + 1) n

/-- The array as these stores leave it. -/
def buffer (r : ArrayRun β γ) (out : List β) : List β :=
  r.stores.foldl (fun out p => out.set p.1 p.2) out

theorem bind_of_some {r : ArrayRun β γ} {a : γ} (h : r.result = some a) (f : γ → ArrayRun β δ) :
    r >>= f = ⟨r.loads ++ (f a).loads, r.stores ++ (f a).stores, (f a).result⟩ := by
  show (match r.result with | none => _ | some a => _) = _
  rw [h]

theorem bind_of_none {r : ArrayRun β γ} (h : r.result = none) (f : γ → ArrayRun β δ) :
    r >>= f = ⟨r.loads, r.stores, none⟩ := by
  show (match r.result with | none => _ | some a => _) = _
  rw [h]

instance : LawfulMonad (ArrayRun β) :=
  LawfulMonad.mk' (ArrayRun β)
    (fun r => by
      show r >>= (fun a => pure a) = r
      cases h : r.result with
      | none =>
        rw [bind_of_none h, ← h]
      | some a =>
        rw [bind_of_some h]
        show (⟨r.loads ++ [], r.stores ++ [], some a⟩ : ArrayRun β _) = r
        rw [List.append_nil, List.append_nil, ← h])
    (fun a f => bind_of_some rfl f)
    (fun r f g => by
      cases h : r.result with
      | none =>
        rw [bind_of_none h, bind_of_none h, bind_of_none rfl]
      | some a =>
        rw [bind_of_some h, bind_of_some h]
        cases h' : (f a).result with
        | none => rw [bind_of_none rfl, bind_of_none h']
        | some b =>
          rw [bind_of_some rfl, bind_of_some h', List.append_assoc, List.append_assoc])

/-! ## In bounds -/

/-- Every load is from below `n`, and every store is to below `m`. -/
structure Within (n m : ℕ) (r : ArrayRun β γ) : Prop where
  loads : ∀ i ∈ r.loads, i < n
  stores : ∀ p ∈ r.stores, p.1 < m

variable {n m : ℕ}

theorem Within.pure (a : γ) : Within n m (Pure.pure a : ArrayRun β γ) :=
  ⟨fun _ h => absurd h List.not_mem_nil, fun _ h => absurd h List.not_mem_nil⟩

theorem Within.load {input : List α} {i : ℕ} {d : α} (h : i < n) :
    Within n m (load input i d : ArrayRun β α) := by
  refine ⟨fun j hj => ?_, fun _ hp => absurd hp List.not_mem_nil⟩
  rwa [List.mem_singleton.mp hj]

theorem Within.store {i : ℕ} {x : β} (h : i < m) : Within n m (store i x) := by
  refine ⟨fun _ hj => absurd hj List.not_mem_nil, fun p hp => ?_⟩
  rwa [List.mem_singleton.mp hp]

theorem Within.ofOption (a : Option γ) : Within n m (ofOption a : ArrayRun β γ) :=
  ⟨fun _ h => absurd h List.not_mem_nil, fun _ h => absurd h List.not_mem_nil⟩

/-- Two runs that stay in bounds do so one after the other. -/
theorem Within.bind_result {r : ArrayRun β γ} {f : γ → ArrayRun β δ} (hr : Within n m r)
    (hf : ∀ a, r.result = some a → Within n m (f a)) : Within n m (r >>= f) := by
  cases h : r.result with
  | none =>
    rw [bind_of_none h]
    exact ⟨hr.loads, hr.stores⟩
  | some a =>
    rw [bind_of_some h]
    exact ⟨List.forall_mem_append.mpr ⟨hr.loads, (hf a h).loads⟩,
      List.forall_mem_append.mpr ⟨hr.stores, (hf a h).stores⟩⟩

theorem Within.bind {r : ArrayRun β γ} {f : γ → ArrayRun β δ} (hr : Within n m r)
    (hf : ∀ a, Within n m (f a)) : Within n m (r >>= f) :=
  hr.bind_result fun a _ => hf a

theorem Within.iterate {body : ℕ → ArrayRun β Unit} {i k : ℕ}
    (hbody : ∀ j, j < i + k → Within n m (body j)) : Within n m (iterate body i k) := by
  induction k generalizing i with
  | zero => exact Within.pure ()
  | succ k ih => exact (hbody i (by omega)).bind fun _ => ih fun j hj => hbody j (by omega)

/-- Larger arrays hold what smaller ones do. -/
theorem Within.mono {n' m' : ℕ} {r : ArrayRun β γ} (h : Within n m r) (hn : n ≤ n')
    (hm : m ≤ m') : Within n' m' r :=
  ⟨fun i hi => (h.loads i hi).trans_le hn, fun p hp => (h.stores p hp).trans_le hm⟩

/-! ## Filling -/

/-- The stores that fill the cells from `i` on. -/
def storesFrom (i : ℕ) : List β → List (ℕ × β)
  | [] => []
  | x :: xs => (i, x) :: storesFrom (i + 1) xs

theorem storesFrom_append (i : ℕ) (xs ys : List β) :
    storesFrom i (xs ++ ys) = storesFrom i xs ++ storesFrom (i + xs.length) ys := by
  induction xs generalizing i with
  | nil => rfl
  | cons x xs ih =>
    rw [List.cons_append, storesFrom, storesFrom, ih, List.length_cons, List.cons_append,
      Nat.add_right_comm, Nat.add_assoc]

/-- The computation fills the cells from `i` on with `xs` and has the result `a`, or it stops
if there is no `xs`. -/
def Fills (r : ArrayRun β γ) (i : ℕ) (xs : Option (List β)) (a : γ) : Prop :=
  match xs with
  | none => r.result = none
  | some xs => r.result = some a ∧ r.stores = storesFrom i xs

theorem fills_pure (i : ℕ) (a : γ) : Fills (Pure.pure a : ArrayRun β γ) i (some []) a :=
  ⟨rfl, rfl⟩

theorem fills_store (i : ℕ) (x : β) : Fills (store i x) i (some [x]) () := ⟨rfl, rfl⟩

/-- A load fills nothing, so that what follows fills the same cells. -/
theorem fills_load_bind {input : List α} {j : ℕ} {d : α} {f : α → ArrayRun β γ} {i : ℕ}
    {xs : Option (List β)} {a : γ} (h : (f (input.getD j d)).Fills i xs a) :
    (load input j d >>= f).Fills i xs a := by
  rw [bind_of_some rfl]
  exact h

/-- Whether to go on decides whether anything is filled. -/
theorem fills_ofOption_bind {o : Option γ} {f : γ → ArrayRun β δ} {i : ℕ}
    {g : γ → Option (List β)} {a : δ} (h : ∀ x, (f x).Fills i (g x) a) :
    (ofOption o >>= f).Fills i (o.bind g) a := by
  cases o with
  | none => rfl
  | some x =>
    rw [bind_of_some rfl]
    exact h x

/-- A store fills the first cell. -/
theorem fills_store_bind {i : ℕ} {x : β} {f : Unit → ArrayRun β γ} {xs : List β} {a : γ}
    (h : (f ()).Fills (i + 1) (some xs) a) : (store i x >>= f).Fills i (some (x :: xs)) a := by
  rw [bind_of_some rfl]
  exact ⟨h.1, congrArg (List.cons (i, x)) h.2⟩

/-- What is filled by one computation after the other. -/
theorem Fills.bind {r : ArrayRun β γ} {f : γ → ArrayRun β δ} {i : ℕ} {xs : Option (List β)}
    {a : γ} (hr : r.Fills i xs a) {ys : Option (List β)} {b : δ}
    (hf : ∀ l, xs = some l → (f a).Fills (i + l.length) ys b) :
    (r >>= f).Fills i (xs.bind fun l => ys.map (l ++ ·)) b := by
  cases xs with
  | none =>
    rw [bind_of_none hr]
    rfl
  | some l =>
    obtain ⟨hres, hstores⟩ := hr
    rw [bind_of_some hres]
    cases ys with
    | none => exact hf l rfl
    | some l' =>
      obtain ⟨hres', hstores'⟩ := hf l rfl
      refine ⟨hres', ?_⟩
      show r.stores ++ (f a).stores = storesFrom i (l ++ l')
      rw [storesFrom_append, hstores, hstores']

theorem Fills.bind_pure {r : ArrayRun β γ} {i : ℕ} {xs : Option (List β)} {a : γ}
    (h : r.Fills i xs a) (b : δ) : (r >>= fun _ => Pure.pure b).Fills i xs b := by
  cases xs with
  | none =>
    rw [bind_of_none h]
    rfl
  | some l =>
    rw [bind_of_some h.1]
    exact ⟨rfl, (List.append_nil _).trans h.2⟩

/-- The cells that are filled hold the elements, the others what they held. -/
theorem foldl_storesFrom (xs pre out : List β) (h : xs.length ≤ out.length) :
    (storesFrom pre.length xs).foldl (fun out p => out.set p.1 p.2) (pre ++ out) =
      pre ++ xs ++ out.drop xs.length := by
  induction xs generalizing pre out with
  | nil => simp [storesFrom]
  | cons x xs ih =>
    cases out with
    | nil => exact absurd h (by simp)
    | cons y out =>
      have hset : (pre ++ y :: out).set pre.length x = (pre ++ [x]) ++ out := by
        rw [List.set_append_right _ _ le_rfl, Nat.sub_self, List.set_cons_zero,
          List.append_assoc, List.singleton_append]
      have hpre : pre.length + 1 = (pre ++ [x]).length := by simp
      rw [storesFrom, List.foldl_cons, hset, hpre,
        ih _ _ (Nat.le_of_succ_le_succ h)]
      simp

theorem Fills.buffer_eq {r : ArrayRun β γ} {xs : List β} {a : γ} (h : r.Fills 0 (some xs) a)
    {out : List β} (hout : xs.length ≤ out.length) :
    r.buffer out = xs ++ out.drop xs.length := by
  rw [buffer, h.2]
  exact foldl_storesFrom xs [] out hout

end ArrayRun
