import DataTree.Conversion
import Mathlib.Data.List.Forall2

namespace DataTree

section Steps

variable {ε δ σ α β : Type}

@[simp] theorem bind_eq_ok {r : Except ε α} {f : α → Except ε β} {b : β} :
    r >>= f = .ok b ↔ ∃ a, r = .ok a ∧ f a = .ok b := by
  cases r <;> simp [bind, Except.bind]

@[simp] theorem map_eq_ok {r : Except ε α} {f : α → β} {b : β} :
    r.map f = .ok b ↔ ∃ a, r = .ok a ∧ f a = b := by
  cases r <;> simp [Except.map]

@[simp] theorem map_eq_error {r : Except ε α} {f : α → β} {e : ε} :
    r.map f = .error e ↔ r = .error e := by
  cases r <;> simp [Except.map]

@[simp] theorem mapError_eq_ok {f : ε → δ} {r : Except ε α} {a : α} :
    r.mapError f = .ok a ↔ r = .ok a := by
  cases r with
  | error e => exact ⟨nofun, nofun⟩
  | ok b =>
      constructor
      · intro h
        cases h
        rfl
      · intro h
        cases h
        rfl

@[simp] theorem run_pure (a : α) (s : σ) : (pure a : EStateM ε σ α) s = .ok a s := rfl

@[simp] theorem run_get (s : σ) : (get : EStateM ε σ σ) s = .ok s s := rfl

@[simp] theorem run_bind (m : EStateM ε σ α) (f : α → EStateM ε σ β) (s : σ) :
    (m >>= f) s =
      match m s with
      | .ok a t => f a t
      | .error e t => .error e t := rfl

@[simp] theorem run_map (f : α → β) (m : EStateM ε σ α) (s : σ) :
    (f <$> m) s =
      match m s with
      | .ok a t => .ok (f a) t
      | .error e t => .error e t := rfl

@[simp] theorem run_get_bind {f : σ → EStateM ε σ β} (s : σ) : (get >>= f) s = f s s := rfl

theorem run_bind_of_ok {m : EStateM ε σ α} {f : α → EStateM ε σ β} {a : α} {s t : σ}
    (h : m s = .ok a t) : (m >>= f) s = f a t := by
  rw [run_bind, h]

theorem run_bind_of_error {m : EStateM ε σ α} {f : α → EStateM ε σ β} {e : ε} {s t : σ}
    (h : m s = .error e t) : (m >>= f) s = .error e t := by
  rw [run_bind, h]

theorem run_bind_congr {m m' : EStateM ε σ α} {f : α → EStateM ε σ β} {s s' : σ} (h : m s = m' s') :
    (m >>= f) s = (m' >>= f) s' := by
  rw [run_bind, run_bind, h]

theorem run_bind_eq_ok {m : EStateM ε σ α} {f : α → EStateM ε σ β} {b : β} {s t : σ} :
    (m >>= f) s = .ok b t ↔ ∃ a u, m s = .ok a u ∧ f a u = .ok b t := by
  rw [run_bind]
  cases m s <;> simp [and_assoc]

theorem run_bind_eq_error {m : EStateM ε σ α} {f : α → EStateM ε σ β} {e : ε} {s t : σ} :
    (m >>= f) s = .error e t ↔ m s = .error e t ∨ ∃ a u, m s = .ok a u ∧ f a u = .error e t := by
  rw [run_bind]
  cases m s <;> simp [and_assoc]

/-- A computation that has every result that one condition names, and every error that another one
does, has no others, if one of them always names something. -/
theorem result_iff {r : Except ε α} {good : α → Prop} {bad : ε → Prop}
    (hgood : ∀ a, good a → r = .ok a) (hbad : ∀ e, bad e → r = .error e)
    (htotal : (∃ a, good a) ∨ ∃ e, bad e) :
    (∀ a, r = .ok a ↔ good a) ∧ ∀ e, r = .error e ↔ bad e := by
  refine ⟨fun a => ⟨fun ha => ?_, hgood a⟩, fun e => ⟨fun he => ?_, hbad e⟩⟩
  · rcases htotal with ⟨b, hb⟩ | ⟨e, he⟩
    · cases ha.symm.trans (hgood b hb)
      exact hb
    · cases ha.symm.trans (hbad e he)
  · rcases htotal with ⟨b, hb⟩ | ⟨d, hd⟩
    · cases he.symm.trans (hgood b hb)
    · cases he.symm.trans (hbad d hd)
      exact hd

/-- A computation that succeeds under one condition, and fails with the errors that another one
names, does so under these conditions only, if there is always one of them. -/
theorem outcome_iff {r : Except ε α} {good : Prop} {bad : ε → Prop} (hgood : good → ∃ a, r = .ok a)
    (hbad : ∀ e, bad e → r = .error e) (htotal : good ∨ ∃ e, bad e) :
    ((∃ a, r = .ok a) ↔ good) ∧ ∀ e, r = .error e ↔ bad e := by
  refine ⟨⟨?_, hgood⟩, (result_iff (fun a (h : r = .ok a) => h) hbad (htotal.imp_left hgood)).2⟩
  rintro ⟨a, ha⟩
  rcases htotal with h | ⟨e, he⟩
  · exact h
  · cases ha.symm.trans (hbad e he)

end Steps

@[simp] theorem Error.within_within (front back : Path) (e : Error) :
    (e.within back).within front = e.within (front ++ back) := by
  simp [Error.within]

theorem Error.orAt_within (e : Error) (path : Path) :
    (e.within path).orAt path = e.within path := by
  rw [Error.orAt]
  split
  next h =>
    have hp : path = [] := (List.append_eq_nil_iff.1 (List.isEmpty_iff.1 h)).1
    have he : e.path = [] := (List.append_eq_nil_iff.1 (List.isEmpty_iff.1 h)).2
    rw [Error.placedAt, Error.within, he, List.append_nil]
  next => rfl

@[simp] theorem mapError_within {α : Type} (front back : Path) (r : Except Error α) :
    (r.mapError (Error.within back)).mapError (Error.within front) =
      r.mapError (Error.within (front ++ back)) := by
  cases r with
  | error e => exact congrArg Except.error (Error.within_within front back e)
  | ok a => rfl

section Collecting

variable {α β : Type} {f : α → Except Error β}

theorem eachItem_cons_eq_ok {index : Nat} {x : α} {xs : List α} {ys : List β} :
    eachItem f index (x :: xs) = .ok ys ↔
      ∃ z zs, f x = .ok z ∧ eachItem f (index + 1) xs = .ok zs ∧ ys = z :: zs := by
  rw [eachItem]
  simp only [bind_eq_ok, mapError_eq_ok, pure, Except.pure, Except.ok.injEq]
  constructor
  · rintro ⟨z, hz, zs, hzs, rfl⟩
    exact ⟨z, zs, hz, hzs, rfl⟩
  · rintro ⟨z, zs, hz, hzs, rfl⟩
    exact ⟨z, hz, zs, hzs, rfl⟩

theorem forall₂_eachItem {r : α → β → Prop} {index : Nat} {xs : List α} {ys : List β}
    (h : eachItem f index xs = .ok ys) (hr : ∀ x ∈ xs, ∀ y, f x = .ok y → r x y) :
    List.Forall₂ r xs ys := by
  induction xs generalizing index ys with
  | nil =>
      cases h
      exact .nil
  | cons x xs ih =>
      obtain ⟨z, zs, hz, hzs, rfl⟩ := eachItem_cons_eq_ok.1 h
      exact .cons (hr x List.mem_cons_self z hz)
        (ih hzs fun y hy => hr y (List.mem_cons_of_mem _ hy))

theorem eachItem_eq_ok_iff {index : Nat} {xs : List α} {ys : List β} :
    eachItem f index xs = .ok ys ↔ List.Forall₂ (fun x y => f x = .ok y) xs ys := by
  induction xs generalizing index ys with
  | nil =>
      rw [List.forall₂_nil_left_iff, eachItem, Except.ok.injEq, eq_comm]
  | cons x xs ih =>
      rw [eachItem_cons_eq_ok, List.forall₂_cons_left_iff]
      simp only [ih, exists_and_left]

theorem forall₂_iff_forall {r : α → β → Prop} {s : β → α → Prop} {p : α → Prop} {xs : List α}
    {ys : List β} (h : List.Forall₂ r xs ys) (hs : ∀ x ∈ xs, ∀ y, r x y → (s y x ↔ p x)) :
    List.Forall₂ s ys xs ↔ ∀ x ∈ xs, p x := by
  induction h with
  | nil => exact iff_of_true .nil (List.forall_mem_nil p)
  | @cons x y xs ys hxy _ ih =>
      rw [List.forall₂_cons, List.forall_mem_cons, hs x List.mem_cons_self y hxy,
        ih fun x hx => hs x (List.mem_cons_of_mem _ hx)]

theorem exists_of_forall₂ {r : α → β → Prop} {xs : List α} {ys : List β}
    (h : List.Forall₂ r xs ys) {x : α} (hx : x ∈ xs) : ∃ y ∈ ys, r x y := by
  induction h with
  | nil => cases hx
  | @cons z y xs ys hzy _ ih =>
      rcases List.mem_cons.1 hx with rfl | hx
      · exact ⟨y, List.mem_cons_self, hzy⟩
      · obtain ⟨y', hy', hxy⟩ := ih hx
        exact ⟨y', List.mem_cons_of_mem _ hy', hxy⟩

theorem eachItem_of_forall₂ {γ : Type} {g : β → Except Error γ} {k : α → Except Error γ}
    {xs : List α} {ys : List β} (h : List.Forall₂ (fun x y => g y = k x) xs ys) (index : Nat) :
    eachItem g index ys = eachItem k index xs := by
  induction h generalizing index with
  | nil => rfl
  | cons hxy _ ih => rw [eachItem, eachItem, hxy, ih]

theorem eachItem_inverse_of_mem {g : β → Except Error α} {xs : List α}
    (hg : ∀ x ∈ xs, ∀ y, f x = .ok y → g y = .ok x) {index : Nat} {ys : List β}
    (h : eachItem f index xs = .ok ys) (start : Nat) : eachItem g start ys = .ok xs := by
  induction xs generalizing index ys start with
  | nil =>
      cases h
      rfl
  | cons x xs ih =>
      obtain ⟨z, zs, hz, hzs, rfl⟩ := eachItem_cons_eq_ok.1 h
      have hrest := ih (fun y hy => hg y (List.mem_cons_of_mem _ hy)) hzs (start + 1)
      exact eachItem_cons_eq_ok.2 ⟨x, xs, hg x List.mem_cons_self z hz, hrest, rfl⟩

theorem eachItem_inverse {g : β → Except Error α} (hg : ∀ {x y}, f x = .ok y → g y = .ok x)
    {index : Nat} {xs : List α} {ys : List β} (h : eachItem f index xs = .ok ys) (start : Nat) :
    eachItem g start ys = .ok xs :=
  eachItem_inverse_of_mem (fun _ _ _ => hg) h start

theorem exists_of_mem_eachItem {index : Nat} {xs : List α} {ys : List β}
    (h : eachItem f index xs = .ok ys) {y : β} (hy : y ∈ ys) : ∃ x ∈ xs, f x = .ok y := by
  induction xs generalizing index ys with
  | nil =>
      cases h
      cases hy
  | cons x xs ih =>
      obtain ⟨z, zs, hz, hzs, rfl⟩ := eachItem_cons_eq_ok.1 h
      rcases List.mem_cons.1 hy with rfl | hy
      · exact ⟨x, List.mem_cons_self, hz⟩
      · obtain ⟨x', hx', hy'⟩ := ih hzs hy
        exact ⟨x', List.mem_cons_of_mem _ hx', hy'⟩

theorem ok_of_mem_eachItem {index : Nat} {xs : List α} {ys : List β}
    (h : eachItem f index xs = .ok ys) {x : α} (hx : x ∈ xs) : ∃ y, f x = .ok y := by
  induction xs generalizing index ys with
  | nil => cases hx
  | cons first xs ih =>
      obtain ⟨z, zs, hz, hzs, rfl⟩ := eachItem_cons_eq_ok.1 h
      rcases List.mem_cons.1 hx with rfl | hx
      · exact ⟨z, hz⟩
      · exact ih hzs hx

theorem eachItem_eq_error {index : Nat} {xs : List α} {e : Error}
    (h : eachItem f index xs = .error e) :
    ∃ front x back e', xs = front ++ x :: back ∧ (∀ y ∈ front, ∃ z, f y = .ok z) ∧
      f x = .error e' ∧ e = e'.within [.index (index + front.length)] := by
  induction xs generalizing index with
  | nil => cases h
  | cons x xs ih =>
      cases hx : f x with
      | error e' =>
          rw [eachItem, hx] at h
          cases h
          exact ⟨[], x, xs, e', rfl, List.forall_mem_nil _, hx, rfl⟩
      | ok z =>
          have hrest : eachItem f (index + 1) xs = .error e := by
            rw [eachItem, hx] at h
            cases hxs : eachItem f (index + 1) xs with
            | error e' =>
                rw [hxs] at h
                exact h
            | ok zs =>
                rw [hxs] at h
                cases h
          obtain ⟨front, y, back, e', rfl, hfront, hy, rfl⟩ := ih hrest
          refine ⟨x :: front, y, back, e', rfl, List.forall_mem_cons.2 ⟨⟨z, hx⟩, hfront⟩, hy, ?_⟩
          rw [List.length_cons, Nat.add_assoc, Nat.add_comm 1]

theorem eachItem_of_error {xs : List α} {i : Nat} {x : α}
    {e : Error} (hi : xs[i]? = some x) (hx : f x = .error e)
    (hfront : ∀ j < i, ∀ y, xs[j]? = some y → ∃ z, f y = .ok z) (index : Nat) :
    eachItem f index xs = .error (e.within [.index (index + i)]) := by
  induction xs generalizing i index with
  | nil => cases hi
  | cons first xs ih =>
      cases i with
      | zero =>
          cases hi
          simp only [eachItem, hx, Except.mapError, bind, Except.bind, Nat.add_zero]
      | succ i =>
          obtain ⟨z, hz⟩ := hfront 0 (Nat.succ_pos i) first rfl
          have hrest := ih hi (fun j hj => hfront (j + 1) (Nat.succ_lt_succ hj)) (index + 1)
          rw [Nat.add_assoc, Nat.add_comm 1] at hrest
          simp only [eachItem, hz, hrest, Except.mapError, bind, Except.bind]

end Collecting

end DataTree
