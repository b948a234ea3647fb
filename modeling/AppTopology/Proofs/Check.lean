import Mathlib.Data.List.Defs

namespace AppTopology.Check

variable {ε α β : Type} {xs : List α} {ys : List β}

theorem bind_eq_ok {x : Except ε α} {f : α → Except ε β} {b : β} :
    x >>= f = .ok b ↔ ∃ a, x = .ok a ∧ f a = .ok b := by
  cases x <;> simp [bind, Except.bind]

theorem pure_eq_ok {a b : α} : (pure a : Except ε α) = .ok b ↔ a = b := by
  simp [pure, Except.pure]

theorem throw_ne_ok {e : ε} {a : α} : (throw e : Except ε α) ≠ .ok a := by
  simp [throw, throwThe, MonadExceptOf.throw]

theorem refuse_eq_ok {p : Prop} [Decidable p] {e : ε} {f : Unit → Except ε α} {a : α} :
    (if p then throw e >>= f else f ()) = .ok a ↔ ¬ p ∧ f () = .ok a := by
  split <;> simp [*, bind_eq_ok, throw_ne_ok]

theorem checkIf_eq_ok {p : Prop} [Decidable p] {c : Except ε Unit} {f : Unit → Except ε α} {a : α} :
    (if p then c >>= f else f ()) = .ok a ↔ (p → c = .ok ()) ∧ f () = .ok a := by
  split
  · next hp =>
    rw [bind_eq_ok]
    exact ⟨fun ⟨(), hc, hf⟩ => ⟨fun _ => hc, hf⟩, fun ⟨hc, hf⟩ => ⟨(), hc hp, hf⟩⟩
  · next hp => simp [hp]

theorem throwIf_eq_ok {p : Prop} [Decidable p] {e : ε} {u : Unit} :
    (if p then throw e else pure u : Except ε Unit) = .ok u ↔ ¬ p := by
  split <;> simp [*, pure_eq_ok, throw_ne_ok]

theorem forM_eq_ok {f : α → Except ε Unit} {u : Unit} :
    xs.forM f = .ok u ↔ ∀ x ∈ xs, f x = .ok () := by
  induction xs with
  | nil => simp [List.forM, pure_eq_ok]
  | cons x xs ih =>
    rw [List.forM, bind_eq_ok]
    simp only [ih, List.mem_cons, forall_eq_or_imp]
    exact ⟨fun ⟨_, hx, hxs⟩ => ⟨hx, hxs⟩, fun ⟨hx, hxs⟩ => ⟨(), hx, hxs⟩⟩

theorem mapM_eq_ok {f : α → Except ε β} {p : α → Prop} {g : α → β}
    (h : ∀ x ∈ xs, ∀ y, f x = .ok y ↔ p x ∧ y = g x) :
    xs.mapM f = .ok ys ↔ (∀ x ∈ xs, p x) ∧ ys = xs.map g := by
  induction xs generalizing ys with
  | nil =>
    rw [List.mapM_nil, pure_eq_ok]
    simp [eq_comm]
  | cons x xs ih =>
    simp only [List.mem_cons, forall_eq_or_imp] at h
    rw [List.mapM_cons, bind_eq_ok]
    simp only [bind_eq_ok, pure_eq_ok, h.1, ih h.2, List.mem_cons, forall_eq_or_imp, List.map_cons]
    constructor
    · rintro ⟨y, ⟨hp, rfl⟩, ys, ⟨hall, rfl⟩, rfl⟩
      exact ⟨⟨hp, hall⟩, rfl⟩
    · rintro ⟨⟨hp, hall⟩, rfl⟩
      exact ⟨_, ⟨hp, rfl⟩, _, ⟨hall, rfl⟩, rfl⟩

theorem mapM_congr {m : Type → Type} [Monad m] [LawfulMonad m] {f g : α → m β}
    (h : ∀ x ∈ xs, f x = g x) : xs.mapM f = xs.mapM g := by
  induction xs with
  | nil => rfl
  | cons x xs ih =>
    simp only [List.mem_cons, forall_eq_or_imp] at h
    rw [List.mapM_cons, List.mapM_cons, h.1, ih h.2]

theorem mapM_ok {f : α → Except ε β} {g : α → β} (h : ∀ x ∈ xs, f x = .ok (g x)) :
    xs.mapM f = .ok (xs.map g) := by
  rw [mapM_eq_ok fun x hx y => show f x = .ok y ↔ True ∧ y = g x by simp [h x hx, eq_comm]]
  simp

theorem mapM_map {γ : Type} (f : α → Except ε β) (g : β → γ) :
    (xs.mapM fun x => (f x).map g) = (xs.mapM f).map (List.map g) := by
  induction xs with
  | nil => rfl
  | cons x xs ih =>
    rw [List.mapM_cons, List.mapM_cons, ih]
    cases f x with
    | error e => rfl
    | ok y => cases xs.mapM f <;> rfl

theorem exists_of_mapM_eq_ok {f : α → Except ε β} (h : xs.mapM f = .ok ys) {y : β} (hy : y ∈ ys) :
    ∃ x ∈ xs, f x = .ok y := by
  induction xs generalizing ys with
  | nil =>
    rw [List.mapM_nil, pure_eq_ok] at h
    exact absurd hy (by simp [← h])
  | cons x xs ih =>
    simp only [List.mapM_cons, bind_eq_ok, pure_eq_ok] at h
    obtain ⟨y', hy', ys', hys', rfl⟩ := h
    rcases List.mem_cons.mp hy with rfl | hy
    · exact ⟨x, List.mem_cons_self, hy'⟩
    · obtain ⟨x', hx', hfound⟩ := ih hys' hy
      exact ⟨x', List.mem_cons_of_mem x hx', hfound⟩

theorem exists_mapM_eq_ok {f : α → Except ε β} :
    (∃ ys, xs.mapM f = .ok ys) ↔ ∀ x ∈ xs, ∃ y, f x = .ok y := by
  induction xs with
  | nil => simp [pure_eq_ok]
  | cons x xs ih =>
    simp only [List.mapM_cons, bind_eq_ok, pure_eq_ok, List.mem_cons, forall_eq_or_imp, ← ih]
    constructor
    · rintro ⟨_, y, hy, ys, hys, rfl⟩
      exact ⟨⟨y, hy⟩, ys, hys⟩
    · rintro ⟨⟨y, hy⟩, ys, hys⟩
      exact ⟨_, y, hy, ys, hys, rfl⟩

theorem mem_iff_of_mapM_eq_ok {f : α → Except ε β} (h : xs.mapM f = .ok ys) {y : β} :
    y ∈ ys ↔ ∃ x ∈ xs, f x = .ok y := by
  constructor
  · exact exists_of_mapM_eq_ok h
  · rintro ⟨x, hx, hy⟩
    induction xs generalizing ys with
    | nil => exact absurd hx List.not_mem_nil
    | cons x' xs ih =>
      simp only [List.mapM_cons, bind_eq_ok, pure_eq_ok] at h
      obtain ⟨y', hy', ys', hys', rfl⟩ := h
      rcases List.mem_cons.mp hx with rfl | hx
      · rw [hy, Except.ok.injEq] at hy'
        exact hy' ▸ List.mem_cons_self
      · exact List.mem_cons_of_mem y' (ih hys' hx)

theorem exists_flatten_eq_nil {f : α → Except ε (List β)} :
    (∃ logs, xs.mapM f = .ok logs ∧ logs.flatten = []) ↔ ∀ x ∈ xs, f x = .ok [] := by
  induction xs with
  | nil => simp [pure_eq_ok]
  | cons x xs ih =>
    simp only [List.mapM_cons, bind_eq_ok, pure_eq_ok, List.mem_cons, forall_eq_or_imp, ← ih]
    constructor
    · rintro ⟨_, ⟨log, hlog, logs, hlogs, rfl⟩, hflatten⟩
      rw [List.flatten_cons, List.append_eq_nil_iff] at hflatten
      exact ⟨hflatten.1 ▸ hlog, logs, hlogs, hflatten.2⟩
    · rintro ⟨hlog, logs, hlogs, hflatten⟩
      exact ⟨[] :: logs, ⟨[], hlog, logs, hlogs, rfl⟩, hflatten⟩

theorem exists_of_isSome {x : Except ε α} (h : x.toOption.isSome) : ∃ a, x = .ok a := by
  cases x with
  | error e => exact nomatch h
  | ok a => exact ⟨a, rfl⟩

theorem eq_error_of_map {f : α → β} {x : Except ε α} {e : ε} (h : x.map f = .error e) :
    x = .error e := by
  cases x with
  | error e' => exact congrArg Except.error (Except.error.inj h)
  | ok a => exact nomatch h

theorem map_eq_map {f : α → β} {x y : Except ε α} (h : f <$> x = f <$> y) :
    (∃ e, x = .error e ∧ y = .error e) ∨ ∃ a b, x = .ok a ∧ y = .ok b ∧ f a = f b := by
  cases x with
  | error e =>
    cases y with
    | error e' => exact .inl ⟨e, rfl, congrArg Except.error (Except.error.inj h).symm⟩
    | ok b => exact nomatch h
  | ok a =>
    cases y with
    | error e' => exact nomatch h
    | ok b => exact .inr ⟨a, b, rfl, rfl, Except.ok.inj h⟩

def FailsWith (p : ε → Prop) (x : Except ε α) : Prop := ∀ e, x = .error e → p e

namespace FailsWith

variable {p : ε → Prop}

theorem ok (a : α) : FailsWith p (.ok a : Except ε α) := nofun

theorem error {e : ε} (h : p e) : FailsWith p (.error e : Except ε α) := by
  rintro _ ⟨⟩
  exact h

theorem of_eq_ok {x : Except ε α} {a : α} (h : x = .ok a) : FailsWith p x := h ▸ ok a

theorem imp {q : ε → Prop} {x : Except ε α} (h : FailsWith p x) (hpq : ∀ e, p e → q e) :
    FailsWith q x :=
  fun e he => hpq e (h e he)

theorem bind_of_ok {x : Except ε α} {f : α → Except ε β} (hx : FailsWith p x)
    (hf : ∀ a, x = .ok a → FailsWith p (f a)) : FailsWith p (x >>= f) := by
  cases x with
  | error e => exact error (hx e rfl)
  | ok a => exact hf a rfl

theorem bind {x : Except ε α} {f : α → Except ε β} (hx : FailsWith p x)
    (hf : ∀ a, FailsWith p (f a)) : FailsWith p (x >>= f) :=
  bind_of_ok hx fun a _ => hf a

theorem ite {q : Prop} [Decidable q] {x y : Except ε α} (hx : q → FailsWith p x)
    (hy : ¬ q → FailsWith p y) : FailsWith p (if q then x else y) := by
  split
  · next hq => exact hx hq
  · next hq => exact hy hq

theorem forM {f : α → Except ε Unit} (h : ∀ x ∈ xs, FailsWith p (f x)) :
    FailsWith p (xs.forM f) := by
  induction xs with
  | nil => exact ok ()
  | cons x xs ih =>
    simp only [List.mem_cons, forall_eq_or_imp] at h
    exact bind h.1 fun _ => ih h.2

theorem mapM {f : α → Except ε β} (h : ∀ x ∈ xs, FailsWith p (f x)) :
    FailsWith p (xs.mapM f) := by
  induction xs with
  | nil => exact ok []
  | cons x xs ih =>
    simp only [List.mem_cons, forall_eq_or_imp] at h
    rw [List.mapM_cons]
    exact bind h.1 fun _ => bind (ih h.2) fun _ => ok _

end FailsWith

end AppTopology.Check
