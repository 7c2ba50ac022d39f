import Periapsis.Transition.System

/-!
# Programs that make calls

A program makes one call after the other, and goes on as the replies tell it.
-/

namespace Transition

inductive Program (Op Reply α : Type) where
  | ret (a : α)
  | call (op : Op) (next : Reply → Program Op Reply α)

structure Calls (σ Op Reply : Type) where
  exec : Op → σ → Reply → Option σ

namespace Program

variable {σ Op Reply α β : Type}

def bind (p : Program Op Reply α) (f : α → Program Op Reply β) : Program Op Reply β :=
  match p with
  | ret a => f a
  | call op next => call op fun r => (next r).bind f

instance monad : Monad (Program Op Reply) where
  pure := ret
  bind := bind

def perform (op : Op) : Program Op Reply Reply :=
  call op ret

def thread (C : Calls σ Op Reply) : System (σ × Program Op Reply α) Reply where
  step
    | (_, ret _), _ => none
    | (s, call op next), r => (C.exec op s r).map fun t => (t, next r)

def Keeps (C : Calls σ Op Reply) (expected : Op → σ → Reply → Prop) (inv : σ → Prop)
    (post : α → σ → Prop) : Program Op Reply α → σ → Prop
  | ret a, s => post a s
  | call op next, s =>
    ∀ r t, expected op s r → C.exec op s r = some t
      → inv t ∧ Keeps C expected inv post (next r) t

def May (C : Calls σ Op Reply) (expected : Op → σ → Reply → Prop) (post : α → σ → Prop) :
    Program Op Reply α → σ → Prop
  | ret a, s => post a s
  | call op next, s =>
    ∃ r t, expected op s r ∧ C.exec op s r = some t ∧ May C expected post (next r) t

def Heeds (expected : Op → σ → Reply → Prop) : σ × Program Op Reply α → Reply → Prop
  | (_, ret _), _ => True
  | (s, call op _), r => expected op s r

section Rules

variable {C : Calls σ Op Reply} {expected : Op → σ → Reply → Prop} {inv : σ → Prop}
  {post : α → σ → Prop} {p q : Program Op Reply α} {s t : σ}

theorem keeps_perform {op : Op} {post : Reply → σ → Prop} :
  Keeps C expected inv post (perform op) s
    ↔ ∀ r t, expected op s r → C.exec op s r = some t → inv t ∧ post r t
  := Iff.rfl

theorem Keeps.mono {post' : α → σ → Prop} (h : Keeps C expected inv post p s)
    (hp : ∀ a t, post a t → post' a t) :
  Keeps C expected inv post' p s
  := by
  induction p generalizing s with
  | ret a => apply hp a s h
  | call op next ih =>
    intro r t hr ht
    exact ⟨(h r t hr ht).1, ih r (h r t hr ht).2⟩

theorem keeps_bind {f : α → Program Op Reply β} {post : β → σ → Prop} :
  Keeps C expected inv post (p >>= f) s
    ↔ Keeps C expected inv (fun a t => Keeps C expected inv post (f a) t) p s
  := by
  induction p generalizing s with
  | ret a => exact Iff.rfl
  | call op next ih =>
    constructor
    · intro h r t hr ht
      exact ⟨(h r t hr ht).1, (ih r).1 (h r t hr ht).2⟩
    · intro h r t hr ht
      exact ⟨(h r t hr ht).1, (ih r).2 (h r t hr ht).2⟩

theorem Keeps.step (h : Keeps C expected inv post p s) {r : Reply}
    (hr : Heeds expected (s, p) r) (hs : (thread C).step (s, p) r = some (t, q)) :
  inv t ∧ Keeps C expected inv post q t
  := by
  cases p with
  | ret a => cases hs
  | call op next =>
    obtain ⟨u, hu, heq⟩ := Option.map_eq_some_iff.1 hs
    obtain ⟨rfl, rfl⟩ := Prod.mk.inj heq
    apply h r u hr hu

theorem Keeps.run (h : Keeps C expected inv post p s) (hi : inv s) {rs : List Reply}
    (hrs : (thread C).Meets (Heeds expected) (s, p) rs)
    (hru : (thread C).run (s, p) rs = some (t, q)) :
  inv t ∧ Keeps C expected inv post q t
  := by
  apply (thread C).run_induction (P := fun u => inv u.1 ∧ Keeps C expected inv post u.2 u.1)
    ⟨hi, h⟩ _ hrs hru
  intro u r v hu hr hs
  apply hu.2.step hr hs

theorem may_perform {op : Op} {post : Reply → σ → Prop} :
  May C expected post (perform op) s
    ↔ ∃ r t, expected op s r ∧ C.exec op s r = some t ∧ post r t
  := Iff.rfl

theorem May.mono {post' : α → σ → Prop} (h : May C expected post p s)
    (hp : ∀ a t, post a t → post' a t) :
  May C expected post' p s
  := by
  induction p generalizing s with
  | ret a => apply hp a s h
  | call op next ih =>
    obtain ⟨r, t, hr, ht, hn⟩ := h
    exact ⟨r, t, hr, ht, ih r hn⟩

theorem may_bind {f : α → Program Op Reply β} {post : β → σ → Prop} :
  May C expected post (p >>= f) s
    ↔ May C expected (fun a t => May C expected post (f a) t) p s
  := by
  induction p generalizing s with
  | ret a => exact Iff.rfl
  | call op next ih =>
    constructor
    · rintro ⟨r, t, hr, ht, hn⟩
      exact ⟨r, t, hr, ht, (ih r).1 hn⟩
    · rintro ⟨r, t, hr, ht, hn⟩
      exact ⟨r, t, hr, ht, (ih r).2 hn⟩

theorem May.run (h : May C expected post p s) :
  ∃ rs t a, (thread C).Meets (Heeds expected) (s, p) rs
    ∧ (thread C).run (s, p) rs = some (t, ret a) ∧ post a t
  := by
  induction p generalizing s with
  | ret a => exact ⟨[], s, a, trivial, rfl, h⟩
  | call op next ih =>
    obtain ⟨r, t, hr, ht, hn⟩ := h
    obtain ⟨rs, u, a, hm, hru, hp⟩ := ih r hn
    have hs : (thread C).step (s, call op next) r = some (t, next r) :=
      Option.map_eq_some_iff.2 ⟨t, ht, rfl⟩
    refine ⟨r :: rs, u, a, ⟨hr, ?_⟩, (thread C).run_cons.2 ⟨_, hs, hru⟩, hp⟩
    intro v hv
    cases hs.symm.trans hv
    apply hm

end Rules

end Program

end Transition
