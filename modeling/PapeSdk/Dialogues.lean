import Mathlib.Order.Notation

/-!
Conversations with a party of unknown behaviour. A talk changes a state and ends with
a result or an error. What it ensures is a condition on the state for each of the two
ends, and the rules below follow the way in which talks are put together.
-/

namespace PapeSdk.Dialogues

/-- A conversation over the state `σ`. -/
def Talk (σ ε α : Type) := σ → σ × Except ε α

namespace Talk

variable {σ ε α β : Type}

def give (a : α) : Talk σ ε α := fun s => (s, .ok a)

def fail (e : ε) : Talk σ ε α := fun s => (s, .error e)

def update (f : σ → σ) : Talk σ ε Unit := fun s => (f s, .ok ())

/-- Goes on with what the state shows. -/
def look (f : σ → Talk σ ε α) : Talk σ ε α := fun s => f s s

/-- Goes on with either end of `talk`. -/
def resume (talk : Talk σ ε α) (next : Except ε α → Talk σ ε β) : Talk σ ε β :=
  fun s => next (talk s).2 (talk s).1

/-- Goes on with a result and stops at an error. -/
def andThen (talk : Talk σ ε α) (next : α → Talk σ ε β) : Talk σ ε β :=
  talk.resume fun
    | .ok a => next a
    | .error e => fail e

instance : Monad (Talk σ ε) where
  pure := give
  bind := andThen

/-- The same conversation with another error. -/
def reword (talk : Talk σ ε α) (f : ε → ε) : Talk σ ε α :=
  talk.resume fun
    | .ok a => give a
    | .error e => fail (f e)

end Talk

open Talk

/-- From where `P` holds, the talk ends with a result where `Q` holds or with an error where
`E` does. -/
def Ensures {σ ε α : Type} (P : σ → Prop) (talk : Talk σ ε α) (Q : α → σ → Prop)
    (E : ε → σ → Prop) : Prop :=
  ∀ s, P s → match talk s with
    | (t, .ok a) => Q a t
    | (t, .error e) => E e t

namespace Ensures

variable {σ ε α β : Type} {P R : σ → Prop} {Q : α → σ → Prop} {E F : ε → σ → Prop}

theorem give {a : α} (h : ∀ s, P s → Q a s) : Ensures P (Talk.give a) Q E := h

theorem pure {a : α} (h : ∀ s, P s → Q a s) : Ensures P (Pure.pure a : Talk σ ε α) Q E := h

theorem fail {e : ε} (h : ∀ s, P s → E e s) : Ensures P (Talk.fail e) Q E := h

theorem update {f : σ → σ} {Q : Unit → σ → Prop} (h : ∀ s, P s → Q () (f s)) :
    Ensures P (Talk.update f) Q E := h

theorem look {f : σ → Talk σ ε α} (h : ∀ s, P s → Ensures (fun t => t = s) (f s) Q E) :
    Ensures P (Talk.look f) Q E :=
  fun s hs => h s hs s rfl

theorem resume {talk : Talk σ ε α} {next : Except ε α → Talk σ ε β} {Q' : β → σ → Prop}
    (htalk : Ensures P talk Q F) (hok : ∀ a, Ensures (Q a) (next (.ok a)) Q' E)
    (herror : ∀ e, Ensures (F e) (next (.error e)) Q' E) :
    Ensures P (talk.resume next) Q' E := by
  intro s hs
  have hend := htalk s hs
  rcases hrun : talk s with ⟨t, e | a⟩
  · rw [hrun] at hend
    have hlast := herror e t hend
    rwa [Talk.resume, hrun]
  · rw [hrun] at hend
    have hlast := hok a t hend
    rwa [Talk.resume, hrun]

theorem bind {talk : Talk σ ε α} {next : α → Talk σ ε β} {Q' : β → σ → Prop}
    (htalk : Ensures P talk Q E) (hnext : ∀ a, Ensures (Q a) (next a) Q' E) :
    Ensures P (talk >>= next) Q' E := by
  change Ensures P (talk.andThen next) Q' E
  unfold Talk.andThen
  exact resume htalk hnext fun _ => fail fun _ hs => hs

theorem reword {talk : Talk σ ε α} {f : ε → ε} (htalk : Ensures P talk Q fun e => E (f e)) :
    Ensures P (talk.reword f) Q E := by
  unfold Talk.reword
  exact resume htalk (fun _ => give fun _ hs => hs) fun _ => fail fun _ hs => hs

theorem mono {talk : Talk σ ε α} {P' : σ → Prop} {Q' : α → σ → Prop} {E' : ε → σ → Prop}
    (h : Ensures P talk Q E) (hP : ∀ s, P' s → P s) (hQ : ∀ a s, Q a s → Q' a s)
    (hE : ∀ e s, E e s → E' e s) : Ensures P' talk Q' E' := by
  intro s hs
  have hend := h s (hP s hs)
  rcases hrun : talk s with ⟨t, e | a⟩
  · rw [hrun] at hend
    exact hE e t hend
  · rw [hrun] at hend
    exact hQ a t hend

theorem of_exists {ι : Type} {P : ι → σ → Prop} {talk : Talk σ ε α}
    (h : ∀ i, Ensures (P i) talk Q E) : Ensures (fun s => ∃ i, P i s) talk Q E := by
  rintro s ⟨i, hs⟩
  exact h i s hs

theorem of_and {p : Prop} {talk : Talk σ ε α} (h : p → Ensures P talk Q E) :
    Ensures (fun s => p ∧ P s) talk Q E := by
  rintro s ⟨hp, hs⟩
  exact h hp s hs

theorem of_or {P' : σ → Prop} {talk : Talk σ ε α} (h : Ensures P talk Q E)
    (h' : Ensures P' talk Q E) : Ensures (fun s => P s ∨ P' s) talk Q E := by
  rintro s (hs | hs)
  · exact h s hs
  · exact h' s hs

theorem ok {talk : Talk σ ε α} {s t : σ} {a : α} (h : Ensures P talk Q E) (hs : P s)
    (hend : talk s = (t, .ok a)) : Q a t := by
  have hQ := h s hs
  rw [hend] at hQ
  exact hQ

theorem error {talk : Talk σ ε α} {s t : σ} {e : ε} (h : Ensures P talk Q E) (hs : P s)
    (hend : talk s = (t, .error e)) : E e t := by
  have hE := h s hs
  rw [hend] at hE
  exact hE

end Ensures

end PapeSdk.Dialogues
