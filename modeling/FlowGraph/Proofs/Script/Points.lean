/-
The points of an evaluation.

A step of the machine is put together from smaller ones, so while it is taken the machine comes to
many points: before each of the smaller steps, in blocks, in functions, and behind what was caught.
`Run.Reaches` leads from a step to all of them, with whatever answers the host gives.

Functions have variables of their own, and those of the script stand by until they are left.  A
`Place` remembers them.

What every action keeps, and what lasts when variables are dropped and functions are entered and
left, holds at all points if it holds in the beginning (`Lasting`).
-/
import FlowGraph.Script.Evaluation

namespace FlowGraph.Script

variable {α β σ : Type}

/-! ### How steps end -/

namespace Session

/-- With some answers the session ends so. -/
inductive Gives : Session α → α → Prop
  | done (a : α) : Gives (.done a) a
  | ask {q : Request} {next : Reply → Session α} {a : α} (r : Reply) (h : Gives (next r) a) :
      Gives (.ask q next) a

theorem gives_done_iff {a b : α} : (done a).Gives b ↔ b = a :=
  ⟨fun h => by cases h; rfl, fun h => h ▸ .done a⟩

theorem gives_bind_iff {x : Session α} {f : α → Session β} {b : β} :
    (x.bind f).Gives b ↔ ∃ a, x.Gives a ∧ (f a).Gives b := by
  induction x with
  | done a => exact ⟨fun h => ⟨a, .done a, h⟩, fun ⟨_, ha, h⟩ => gives_done_iff.mp ha ▸ h⟩
  | ask q next ih =>
      constructor
      · intro h
        cases h with
        | ask r h =>
            obtain ⟨a, ha, hf⟩ := (ih r).mp h
            exact ⟨a, .ask r ha, hf⟩
      · rintro ⟨a, ha, hf⟩
        cases ha with
        | ask r ha => exact .ask r ((ih r).mpr ⟨a, ha, hf⟩)

/-- The answers of a host are some answers. -/
theorem gives_run (x : Session α) (host : Request → σ → Reply × σ) (s : σ) :
    x.Gives (x.run host s).1 := by
  induction x generalizing s with
  | done a => exact .done a
  | ask q next ih => exact .ask _ (ih _ _)

theorem run_bind (x : Session α) (f : α → Session β) (host : Request → σ → Reply × σ) (s : σ) :
    (x.bind f).run host s = (f (x.run host s).1).run host (x.run host s).2 := by
  induction x generalizing s with
  | done a => rfl
  | ask q next ih => exact ih _ _

theorem gives_andThen_iff {x : Session α} {f : α → Session β} {b : β} :
    (x.andThen f).Gives b ↔ ∃ a, x.Gives a ∧ (f a).Gives b := by
  rw [andThen_eq_bind, gives_bind_iff]

end Session

/-- Whatever machine the step leaves has the property. -/
def Ending.All (P : Machine → Prop) : Ending α → Prop
  | value _ m => P m
  | signal _ m => P m
  | exhausted => True

namespace Run

/-- From the machine the step can end so. -/
def Ends (x : Run α) (m : Machine) (r : Ending α) : Prop := (x.run m).Gives r

/-- How the step ends with a host. -/
def endingWith (x : Run α) (host : Request → σ → Reply × σ) (s : σ) (m : Machine) : Ending α :=
  ((x.run m).run host s).1

variable {x : Run α} {f : α → Run β} {m : Machine} {r : Ending α}

theorem pure_ends_iff {a : α} : (Pure.pure a : Run α).Ends m r ↔ r = .value a m :=
  Session.gives_done_iff

theorem exhausted_ends_iff : (exhausted : Run α).Ends m r ↔ r = .exhausted :=
  Session.gives_done_iff

theorem signal_ends_iff {s : Signal} : (signal s : Run α).Ends m r ↔ r = .signal s m :=
  Session.gives_done_iff

theorem act_ends_iff {a : Action α} : (act a).Ends m r ↔ r = a.run m :=
  Session.gives_done_iff

theorem ask_ends_iff {q : Request} {r : Ending Reply} :
    (ask q).Ends m r ↔ ∃ reply, r = .value reply m := by
  constructor
  · intro h
    cases h with
    | ask reply h => exact ⟨reply, Session.gives_done_iff.mp h⟩
  · rintro ⟨reply, rfl⟩
    exact .ask reply (.done _)

theorem bind_ends_iff {r : Ending β} :
    (x >>= f).Ends m r ↔
      (∃ a mid, x.Ends m (.value a mid) ∧ (f a).Ends mid r) ∨
        (∃ s mid, x.Ends m (.signal s mid) ∧ r = .signal s mid) ∨
          x.Ends m .exhausted ∧ r = .exhausted := by
  refine Session.gives_andThen_iff.trans ⟨?_, ?_⟩
  · rintro ⟨e, hx, hf⟩
    cases e with
    | value a mid => exact .inl ⟨a, mid, hx, hf⟩
    | signal s mid => exact .inr (.inl ⟨s, mid, hx, Session.gives_done_iff.mp hf⟩)
    | exhausted => exact .inr (.inr ⟨hx, Session.gives_done_iff.mp hf⟩)
  · rintro (⟨a, mid, hx, hf⟩ | ⟨s, mid, hx, rfl⟩ | ⟨hx, rfl⟩)
    · exact ⟨_, hx, hf⟩
    · exact ⟨_, hx, .done _⟩
    · exact ⟨_, hx, .done _⟩

section Hosts

variable {host : Request → σ → Reply × σ} {s : σ} {mid : Machine}

theorem ends_endingWith : x.Ends m (x.endingWith host s m) := Session.gives_run _ host s

theorem endingWith_of_done (h : x.run m = .done r) : x.endingWith host s m = r := by
  rw [endingWith, h]
  rfl

theorem endingWith_bind : (x >>= f).endingWith host s m =
    (((x.endingWith host s m).next fun a mid => (f a).run mid).run host
      ((x.run m).run host s).2).1 := by
  show (((x.run m).andThen _).run host s).1 = _
  rw [Session.andThen_eq_bind, Session.run_bind]
  rfl

theorem endingWith_bind_of_value {a : α} (h : x.endingWith host s m = .value a mid) :
    ∃ s', (x >>= f).endingWith host s m = (f a).endingWith host s' mid := by
  rw [endingWith_bind, h]
  exact ⟨_, rfl⟩

theorem endingWith_bind_of_signal {t : Signal} (h : x.endingWith host s m = .signal t mid) :
    (x >>= f).endingWith host s m = .signal t mid := by
  rw [endingWith_bind, h]
  rfl

theorem endingWith_bind_of_exhausted (h : x.endingWith host s m = .exhausted) :
    (x >>= f).endingWith host s m = .exhausted := by
  rw [endingWith_bind, h]
  rfl

end Hosts

theorem attempt_ends_iff {r : Ending (Except Signal α)} :
    (attempt x).Ends m r ↔ ∃ e, x.Ends m e ∧ r = e.caught :=
  Session.gives_andThen_iff.trans (by simp only [Session.gives_done_iff, Ends])

theorem locally_ends_iff :
    (locally x).Ends m r ↔ ∃ e, x.Ends m e ∧ r = e.leaving (·.dropTo m.slots.length) :=
  Session.gives_andThen_iff.trans (by simp only [Session.gives_done_iff, Ends])

theorem isolated_ends_iff {slots : List Slot} {r : Ending (α × List Slot)} :
    (isolated slots x).Ends m r ↔
      ∃ e, x.Ends { m with slots := slots } e ∧
        r = e.withSlots.leaving ({ · with slots := m.slots }) :=
  Session.gives_andThen_iff.trans (by simp only [Session.gives_done_iff, Ends])

end Run

/-! ### Places and points -/

/-- Where the machine stands: outside of functions, or inside, while such variables stand by. -/
abbrev Place := Option (List Slot)

namespace Place

/-- The variables of the script itself. -/
def outermost (place : Place) (m : Machine) : List Slot := place.getD m.slots

/-- In a function that is entered. -/
def inside (place : Place) (m : Machine) : Place := some (place.outermost m)

end Place

/-- From a step on a machine, the machine comes to be where a step is begun. -/
inductive Run.Reaches : {α : Type} → Place → Run α → Machine →
    {β : Type} → Place → Run β → Machine → Prop
  | here {α : Type} {place : Place} {x : Run α} {m : Machine} : Reaches place x m place x m
  | first {α β γ : Type} {place place' : Place} {x : Run α} {f : α → Run β} {y : Run γ}
      {m m' : Machine} (h : Reaches place x m place' y m') :
      Reaches place (x >>= f) m place' y m'
  | further {α β γ : Type} {place place' : Place} {x : Run α} {f : α → Run β} {y : Run γ}
      {m mid m' : Machine} {a : α} (hx : x.Ends m (.value a mid))
      (h : Reaches place (f a) mid place' y m') : Reaches place (x >>= f) m place' y m'
  | attempt {α γ : Type} {place place' : Place} {x : Run α} {y : Run γ} {m m' : Machine}
      (h : Reaches place x m place' y m') : Reaches place (.attempt x) m place' y m'
  | locally {α γ : Type} {place place' : Place} {x : Run α} {y : Run γ} {m m' : Machine}
      (h : Reaches place x m place' y m') : Reaches place (.locally x) m place' y m'
  | isolated {α γ : Type} {place place' : Place} {slots : List Slot} {x : Run α} {y : Run γ}
      {m m' : Machine} (h : Reaches (place.inside m) x { m with slots := slots } place' y m') :
      Reaches place (.isolated slots x) m place' y m'

/-! ### What lasts -/

/-- What holds of a place and its machine is not undone by anything that a step does. -/
structure Lasting (P : Place → Machine → Prop) : Prop where
  act {α : Type} (a : Action α) {place : Place} {m : Machine} : P place m → (a.run m).All (P place)
  drop {place : Place} {m m' : Machine} :
    P place m → P place m' → P place (m'.dropTo m.slots.length)
  enter {place : Place} {m : Machine} (slots : List Slot) :
    P place m → P (place.inside m) { m with slots := slots }
  leave {place : Place} {m m' : Machine} :
    P place m → P (place.inside m) m' → P place { m' with slots := m.slots }

namespace Lasting

variable {P : Place → Machine → Prop} (hP : Lasting P)
include hP

/-- Whatever step is taken, it holds in the end. -/
theorem ends (x : Run α) {place : Place} {m : Machine} (h : P place m) {r : Ending α}
    (hr : x.Ends m r) : r.All (P place) := by
  induction x generalizing place m with
  | pure a =>
      obtain rfl := Run.pure_ends_iff.mp hr
      exact h
  | bind x f ihx ihf =>
      rcases Run.bind_ends_iff.mp hr with ⟨a, mid, hx, hf⟩ | ⟨s, mid, hx, rfl⟩ | ⟨hx, rfl⟩
      · exact ihf a (ihx h hx) hf
      · exact ihx h hx
      · trivial
  | exhausted =>
      obtain rfl := Run.exhausted_ends_iff.mp hr
      trivial
  | signal s =>
      obtain rfl := Run.signal_ends_iff.mp hr
      exact h
  | act a =>
      obtain rfl := Run.act_ends_iff.mp hr
      exact hP.act a h
  | ask q =>
      obtain ⟨reply, rfl⟩ := Run.ask_ends_iff.mp hr
      exact h
  | attempt x ih =>
      obtain ⟨e, hx, rfl⟩ := Run.attempt_ends_iff.mp hr
      have hall := ih h hx
      cases e <;> exact hall
  | locally x ih =>
      obtain ⟨e, hx, rfl⟩ := Run.locally_ends_iff.mp hr
      have hall := ih h hx
      cases e with
      | value a m' => exact hP.drop h hall
      | signal s m' => exact hP.drop h hall
      | exhausted => trivial
  | isolated slots x ih =>
      obtain ⟨e, hx, rfl⟩ := Run.isolated_ends_iff.mp hr
      have hall := ih (hP.enter slots h) hx
      cases e with
      | value a m' => exact hP.leave h hall
      | signal s m' => exact hP.leave h hall
      | exhausted => trivial

/-- **It holds at every point to which the machine comes.** -/
theorem reaches {x : Run α} {y : Run β} {place place' : Place} {m m' : Machine}
    (hreach : Run.Reaches place x m place' y m') (h : P place m) : P place' m' := by
  induction hreach with
  | here => exact h
  | first _ ih => exact ih h
  | further hx _ ih => exact ih (hP.ends _ h hx)
  | attempt _ ih => exact ih h
  | locally _ ih => exact ih h
  | isolated _ ih => exact ih (hP.enter _ h)

end Lasting

end FlowGraph.Script
