import ClusterScaler.Program

/-!
# Programs under a protocol

A protocol follows a program with a state of its own: it says which questions are permitted in a
state, and which states may follow an answer. A program meets a protocol if it asks only what is
permitted, whatever the answers are. The rules below reduce a program to its parts, and
`Meets.result` reads a statement about all runs off.

The attempts of a program are what it has put to the world so far, with the answers that came. The
last question of a program that waits, or that was stopped while it waited, has no answer. Whoever
takes notes of the attempts as they are made can be followed by a protocol.
-/

set_option autoImplicit false

namespace ClusterScaler

/-- What may be asked in a state, and what the state may be after the answer. -/
structure Protocol (Op : Type) (Reply : Op → Type) (σ : Type) where
  permits : σ → Op → Prop
  follows : σ → (op : Op) → Reply op → σ → Prop

/-- A protocol that expects only the answers that are allowed. -/
def Protocol.restrict {Op : Type} {Reply : Op → Type} {σ : Type} (P : Protocol Op Reply σ)
    (allows : (op : Op) → Reply op → Prop) : Protocol Op Reply σ where
  permits := P.permits
  follows s op r s' := P.follows s op r s' ∧ allows op r

namespace Program

variable {Op : Type} {Reply : Op → Type} {σ α β : Type}

instance : LawfulMonad (Program Op Reply) :=
  LawfulMonad.mk' (Program Op Reply) bind_pure (fun _ _ => rfl) bind_assoc

/-- From a state, a program asks only what the protocol permits and ends in an accepted result. -/
def Meets (P : Protocol Op Reply σ) (accepts : α → σ → Prop) : Program Op Reply α → σ → Prop
  | done a, s => accepts a s
  | ask op next, s =>
    P.permits s op ∧ ∀ r s', P.follows s op r s' → Meets P accepts (next r) s'

variable {P : Protocol Op Reply σ}

theorem Meets.mono {accepts accepts' : α → σ → Prop} {p : Program Op Reply α} {s : σ}
    (h : p.Meets P accepts s) (himp : ∀ a s, accepts a s → accepts' a s) :
    p.Meets P accepts' s := by
  induction p generalizing s with
  | done a => exact himp a s h
  | ask op next ih =>
    refine ⟨h.1, ?_⟩
    intro r s' hfollows
    exact ih r (h.2 r s' hfollows)

/-- A program that goes on with the result of another meets a protocol if the first one does, up to
a state from which the second one does. -/
theorem meets_bind {accepts : β → σ → Prop} {p : Program Op Reply α}
    {f : α → Program Op Reply β} {s : σ} :
    (p.bind f).Meets P accepts s ↔ p.Meets P (fun a s' => (f a).Meets P accepts s') s := by
  induction p generalizing s with
  | done a => exact Iff.rfl
  | ask op next ih =>
    constructor
    · intro h
      refine ⟨h.1, ?_⟩
      intro r s' hfollows
      exact (ih r).mp (h.2 r s' hfollows)
    · intro h
      refine ⟨h.1, ?_⟩
      intro r s' hfollows
      exact (ih r).mpr (h.2 r s' hfollows)

/-- The states that may follow a list of exchanges. -/
inductive Follows (P : Protocol Op Reply σ) : σ → List (Exchange Op Reply) → σ → Prop where
  | nil (s : σ) : Follows P s [] s
  | cons {s s' s'' : σ} {x : Exchange Op Reply} {rest : List (Exchange Op Reply)} :
      P.follows s x.op x.reply s' → Follows P s' rest s'' → Follows P s (x :: rest) s''

theorem Follows.restrict {allows : (op : Op) → Reply op → Prop} {s s' : σ}
    {trace : List (Exchange Op Reply)} (h : Follows P s trace s')
    (hallowed : ∀ x ∈ trace, allows x.op x.reply) : Follows (P.restrict allows) s trace s' := by
  induction h with
  | nil s => exact .nil s
  | cons hstep _ ih =>
    exact .cons ⟨hstep, hallowed _ List.mem_cons_self⟩
      (ih (fun x hx => hallowed x (List.mem_cons_of_mem _ hx)))

theorem Follows.mono {P' : Protocol Op Reply σ} {s s' : σ} {trace : List (Exchange Op Reply)}
    (h : Follows P s trace s') (himp : ∀ s op r s', P.follows s op r s' → P'.follows s op r s') :
    Follows P' s trace s' := by
  induction h with
  | nil s => exact .nil s
  | cons hstep _ ih => exact .cons (himp _ _ _ _ hstep) ih

/-- What follows a list of exchanges follows its parts in turn. -/
theorem follows_append {s s' : σ} {trace trace' : List (Exchange Op Reply)} :
    Follows P s (trace ++ trace') s' ↔ ∃ m, Follows P s trace m ∧ Follows P m trace' s' := by
  constructor
  · intro h
    induction trace generalizing s with
    | nil => exact ⟨s, .nil s, h⟩
    | cons x rest ih =>
      cases h with
      | cons hstep hrest =>
        obtain ⟨m, hfirst, hlast⟩ := ih hrest
        exact ⟨m, .cons hstep hfirst, hlast⟩
  · rintro ⟨m, hfirst, hlast⟩
    induction hfirst with
    | nil s => exact hlast
    | cons hstep _ ih => exact .cons hstep (ih hlast)

/-- A protocol that also remembers what was asked and answered. -/
def recorded (P : Protocol Op Reply σ) : Protocol Op Reply (σ × List (Exchange Op Reply)) where
  permits s op := P.permits s.1 op
  follows s op r s' := P.follows s.1 op r s'.1 ∧ s'.2 = s.2 ++ [⟨op, r⟩]

theorem Follows.of_recorded {s s' : σ × List (Exchange Op Reply)}
    {trace : List (Exchange Op Reply)} (h : Follows (recorded P) s trace s') :
    Follows P s.1 trace s'.1 ∧ s'.2 = s.2 ++ trace := by
  induction h with
  | nil s => exact ⟨.nil s.1, (List.append_nil s.2).symm⟩
  | cons hstep _ ih =>
    refine ⟨.cons hstep.1 ih.1, ?_⟩
    rw [ih.2, hstep.2, List.append_assoc]
    rfl

/-- Every run of a program that meets a protocol ends in an accepted result. -/
theorem Meets.result {accepts : α → σ → Prop} {p : Program Op Reply α} {s s' : σ}
    {trace : List (Exchange Op Reply)} {a : α} (h : p.Meets P accepts s) (hrun : Runs p trace a)
    (hfollows : Follows P s trace s') : accepts a s' := by
  induction hrun generalizing s with
  | done a =>
    cases hfollows
    exact h
  | ask _ ih =>
    cases hfollows with
    | cons hstep hrest => exact ih (h.2 _ _ hstep) hrest

/-- A run of a program that goes on with the result of another is a run of the first and then one of
the second. -/
theorem runs_bind_iff {p : Program Op Reply α} {f : α → Program Op Reply β}
    {trace : List (Exchange Op Reply)} {b : β} :
    Runs (p.bind f) trace b ↔
      ∃ first a rest, trace = first ++ rest ∧ Runs p first a ∧ Runs (f a) rest b := by
  constructor
  · intro hrun
    induction p generalizing trace with
    | done a => exact ⟨[], a, trace, rfl, .done a, hrun⟩
    | ask op next ih =>
      cases hrun with
      | ask htail =>
        obtain ⟨first, a, rest, rfl, hfirst, hrest⟩ := ih _ htail
        exact ⟨_ :: first, a, rest, rfl, .ask hfirst, hrest⟩
  · rintro ⟨first, a, rest, rfl, hfirst, hrest⟩
    induction hfirst with
    | done a => exact hrest
    | ask _ ih => exact .ask (ih hrest)

/-- A program has had this exchange of questions and answers so far, and has this left to do. -/
inductive Begins : Program Op Reply α → List (Exchange Op Reply) → Program Op Reply α → Prop where
  | here (p : Program Op Reply α) : Begins p [] p
  | ask {op : Op} {next : Reply op → Program Op Reply α} {r : Reply op}
      {rest : List (Exchange Op Reply)} {left : Program Op Reply α} :
      Begins (next r) rest left → Begins (.ask op next) (⟨op, r⟩ :: rest) left

theorem Runs.begins {p : Program Op Reply α} {trace : List (Exchange Op Reply)} {a : α}
    (h : Runs p trace a) : Begins p trace (.done a) := by
  induction h with
  | done a => exact .here _
  | ask _ ih => exact .ask ih

/-- A program comes to one end only by what it is answered. -/
theorem Runs.unique {p : Program Op Reply α} {first first' rest rest' : List (Exchange Op Reply)}
    {a a' : α} (h : Runs p first a) (h' : Runs p first' a')
    (hsplit : first ++ rest = first' ++ rest') : first = first' ∧ a = a' := by
  induction h generalizing first' with
  | done a =>
    cases h'
    exact ⟨rfl, rfl⟩
  | ask _ ih =>
    cases h' with
    | ask h' =>
      obtain ⟨hexchange, hrest⟩ := List.cons.inj hsplit
      cases hexchange
      obtain ⟨rfl, rfl⟩ := ih h' hrest
      exact ⟨rfl, rfl⟩

/-- Beyond a run of its first part, a program is in its second one. -/
theorem Begins.of_bind {p : Program Op Reply α} {f : α → Program Op Reply β}
    {first rest : List (Exchange Op Reply)} {a : α} {left : Program Op Reply β}
    (h : Begins (p.bind f) (first ++ rest) left) (hrun : Runs p first a) :
    Begins (f a) rest left := by
  induction hrun with
  | done a => exact h
  | ask _ ih =>
    cases h with
    | ask h => exact ih h

/-- A program that has had an exchange in two parts has had the first part of it. -/
theorem Begins.split {p left : Program Op Reply α} {first rest : List (Exchange Op Reply)}
    (h : Begins p (first ++ rest) left) :
    ∃ middle, Begins p first middle ∧ Begins middle rest left := by
  induction first generalizing p with
  | nil => exact ⟨p, .here p, h⟩
  | cons x first ih =>
    cases h with
    | ask hrest =>
      obtain ⟨middle, hfirst, hlast⟩ := ih hrest
      exact ⟨middle, .ask hfirst, hlast⟩

/-- A program that goes on with the result of another waits for an answer in its first part, or has
run it and is in its second one. -/
theorem Begins.bind_cases {p : Program Op Reply α} {f : α → Program Op Reply β}
    {trace : List (Exchange Op Reply)} {left : Program Op Reply β}
    (h : Begins (p.bind f) trace left) :
    (∃ op next, Begins p trace (.ask op next) ∧ left = .ask op (fun r => (next r).bind f)) ∨
      ∃ first a rest, trace = first ++ rest ∧ Runs p first a ∧ Begins (f a) rest left := by
  induction p generalizing trace with
  | done a => exact .inr ⟨[], a, trace, rfl, .done a, h⟩
  | ask op next ih =>
    cases h with
    | here => exact .inl ⟨op, next, .here _, rfl⟩
    | @ask _ _ r rest _ hrest =>
      rcases ih r hrest with
        ⟨op', next', hbegins, rfl⟩ | ⟨first, a, others, rfl, hfirst, hothers⟩
      · exact .inl ⟨op', next', .ask hbegins, rfl⟩
      · exact .inr ⟨⟨op, r⟩ :: first, a, others, rfl, .ask hfirst, hothers⟩

/-- What is left of a program that meets a protocol meets it too. -/
theorem Meets.left {accepts : α → σ → Prop} {p left : Program Op Reply α} {s s' : σ}
    {trace : List (Exchange Op Reply)} (h : p.Meets P accepts s) (hbegins : Begins p trace left)
    (hfollows : Follows P s trace s') : left.Meets P accepts s' := by
  induction hbegins generalizing s with
  | here p =>
    cases hfollows
    exact h
  | ask _ ih =>
    cases hfollows with
    | cons hstep hrest => exact ih (h.2 _ _ hstep) hrest

/-- Whatever a program that meets a protocol asks is permitted in every state that its exchange so far
may have led to. -/
theorem Meets.permits {accepts : α → σ → Prop} {p left : Program Op Reply α} {s m : σ}
    {before rest : List (Exchange Op Reply)} {x : Exchange Op Reply} (h : p.Meets P accepts s)
    (hbegins : Begins p (before ++ x :: rest) left) (hfollows : Follows P s before m) :
    P.permits m x.op := by
  obtain ⟨middle, hfirst, hlast⟩ := hbegins.split
  have hmiddle := h.left hfirst hfollows
  cases hlast with
  | ask _ => exact hmiddle.1

/-- A program that meets a protocol has asked only what is permitted, in states that keep whatever
permitted questions keep, and is in such a state. -/
theorem Meets.asked {accepts : α → σ → Prop} {keeps : σ → Prop} {p left : Program Op Reply α}
    {s s' : σ} {trace : List (Exchange Op Reply)} (h : p.Meets P accepts s)
    (hkeeps : ∀ s op r s', keeps s → P.permits s op → P.follows s op r s' → keeps s')
    (hstart : keeps s) (hbegins : Begins p trace left) (hfollows : Follows P s trace s') :
    keeps s' ∧ ∀ x ∈ trace, ∃ s, keeps s ∧ P.permits s x.op := by
  induction hbegins generalizing s with
  | here p =>
    cases hfollows
    exact ⟨hstart, fun x hx => absurd hx List.not_mem_nil⟩
  | ask _ ih =>
    cases hfollows with
    | cons hstep hrest =>
      obtain ⟨hlast, hothers⟩ := ih (h.2 _ _ hstep) (hkeeps _ _ _ _ hstart h.1 hstep) hrest
      refine ⟨hlast, fun x hx => ?_⟩
      rcases List.mem_cons.mp hx with rfl | hx
      · exact ⟨s, hstart, h.1⟩
      · exact hothers x hx

/-- Every run of a program that meets a protocol asks only what is permitted. -/
theorem Meets.permitted {accepts : α → σ → Prop} {p : Program Op Reply α} {s s' : σ}
    {trace : List (Exchange Op Reply)} {a : α} (h : p.Meets P accepts s) (hrun : Runs p trace a)
    (hfollows : Follows P s trace s') : ∀ x ∈ trace, ∃ s, P.permits s x.op := by
  intro x hx
  have hasked := @Meets.asked _ _ _ _ _ _ (fun _ => True) p _ s s' trace h
    (fun _ _ _ _ _ _ _ => trivial) trivial hrun.begins hfollows
  obtain ⟨s, -, hpermits⟩ := hasked.2 x hx
  exact ⟨s, hpermits⟩

/-- The protocol that permits every question and expects every answer. -/
def unwatched : Protocol Op Reply Unit where
  permits _ _ := True
  follows _ _ _ _ := True

theorem follows_unwatched (trace : List (Exchange Op Reply)) :
    Follows unwatched () trace () := by
  induction trace with
  | nil => exact .nil ()
  | cons x rest ih => exact .cons trivial ih

theorem meets_unwatched {accepts : α → Unit → Prop} (p : Program Op Reply α)
    (h : ∀ a, accepts a ()) : p.Meets unwatched accepts () := by
  induction p with
  | done a => exact h a
  | ask op next ih => exact ⟨trivial, fun r _ _ => ih r⟩

/-- What holds of the result whatever the answers are also holds of it under a protocol. -/
theorem Meets.and_unwatched {accepts : α → σ → Prop} {holds : α → Unit → Prop}
    {p : Program Op Reply α} {s : σ} (h : p.Meets P accepts s) (hall : p.Meets unwatched holds ()) :
    p.Meets P (fun a s' => accepts a s' ∧ holds a ()) s := by
  induction p generalizing s with
  | done a => exact ⟨h, hall⟩
  | ask op next ih => exact ⟨h.1, fun r s' hfollows => ih r (h.2 r s' hfollows) (hall.2 r () trivial)⟩

/-- The protocol that permits the same questions at any time and expects every answer. -/
def asking (permitted : Op → Prop) : Protocol Op Reply Unit where
  permits _ op := permitted op
  follows _ _ _ _ := True

theorem follows_asking {permitted : Op → Prop} (trace : List (Exchange Op Reply)) :
    Follows (asking permitted) () trace () :=
  (follows_unwatched trace).mono fun _ _ _ _ h => h

/-- The protocol that permits every question, expects every answer and remembers both. -/
def remembering : Protocol Op Reply (List (Exchange Op Reply)) where
  permits _ _ := True
  follows s op r s' := s' = s ++ [⟨op, r⟩]

theorem follows_remembering (s trace : List (Exchange Op Reply)) :
    Follows remembering s trace (s ++ trace) := by
  induction trace generalizing s with
  | nil =>
    rw [List.append_nil]
    exact .nil s
  | cons x rest ih =>
    rw [List.append_cons]
    exact .cons rfl (ih _)

/-- Run a program with an answer for every question, and keep what was asked and answered. -/
def replay (answer : (op : Op) → Reply op) :
    Program Op Reply α → List (Exchange Op Reply) × α
  | done a => ([], a)
  | ask op next =>
    let (rest, a) := (next (answer op)).replay answer
    (⟨op, answer op⟩ :: rest, a)

theorem runs_replay (answer : (op : Op) → Reply op) (p : Program Op Reply α) :
    Runs p (p.replay answer).1 (p.replay answer).2 ∧
      ∀ x ∈ (p.replay answer).1, x.reply = answer x.op := by
  induction p with
  | done a => exact ⟨.done a, fun x hx => absurd hx List.not_mem_nil⟩
  | ask op next ih =>
    obtain ⟨hrun, hanswers⟩ := ih (answer op)
    refine ⟨.ask hrun, ?_⟩
    intro x hx
    rcases List.mem_cons.mp hx with rfl | hx
    · rfl
    · exact hanswers x hx

section Attempts

/-- A question as it was put, with its answer if one came. -/
structure Attempt (Op : Type) (Reply : Op → Type) where
  op : Op
  reply? : Option (Reply op)

/-- A program has made these attempts. It is done with a result, or it waits for the answer to the
last of them. -/
inductive Tries : Program Op Reply α → List (Attempt Op Reply) → Option α → Prop where
  | done (a : α) : Tries (.done a) [] (some a)
  | waits (op : Op) (next : Reply op → Program Op Reply α) : Tries (.ask op next) [⟨op, none⟩] none
  | ask {op : Op} {next : Reply op → Program Op Reply α} {r : Reply op}
      {rest : List (Attempt Op Reply)} {a? : Option α} :
      Tries (next r) rest a? → Tries (.ask op next) (⟨op, some r⟩ :: rest) a?

/-- A program that has made attempts has once waited for the answer to each of them. -/
theorem Tries.upTo {p : Program Op Reply α} {before after : List (Attempt Op Reply)}
    {x : Attempt Op Reply} {a? : Option α} (h : Tries p (before ++ x :: after) a?) :
    Tries p (before ++ [⟨x.op, none⟩]) none := by
  generalize htotal : before ++ x :: after = total at h
  induction h generalizing before with
  | done a => exact absurd htotal (List.append_ne_nil_of_right_ne_nil _ (List.cons_ne_nil _ _))
  | waits op next =>
    cases before with
    | nil =>
      cases htotal
      exact .waits op next
    | cons y before => exact absurd (List.cons.inj htotal).2 (by simp)
  | ask _ ih =>
    cases before with
    | nil =>
      cases htotal
      exact .waits _ _
    | cons y before =>
      cases htotal
      exact .ask (ih rfl)

/-- What was asked and answered on the way to a question, and the question, were attempts. -/
theorem Begins.tries {p : Program Op Reply α} {trace : List (Exchange Op Reply)}
    {left : Program Op Reply α} {rest : List (Attempt Op Reply)} {a? : Option α}
    (h : Begins p trace left) (hleft : Tries left rest a?) :
    Tries p (trace.map (fun x => ⟨x.op, some x.reply⟩) ++ rest) a? := by
  induction h with
  | here p => exact hleft
  | ask _ ih => exact .ask (ih hleft)

/-- The protocol that follows someone who takes notes of the attempts. What is noted of an attempt
has to be sound already when it is made. -/
def noting (note : σ → Attempt Op Reply → σ) (sound : σ → Prop) : Protocol Op Reply σ where
  permits s op := sound (note s ⟨op, none⟩)
  follows s op r s' := s' = note s ⟨op, some r⟩

variable {note : σ → Attempt Op Reply → σ} {sound : σ → Prop} {accepts : α → σ → Prop}

/-- While a program that meets its protocol waits, the notes of its attempts are sound. -/
theorem Meets.sound_of_waits {p : Program Op Reply α} {s : σ} {attempts : List (Attempt Op Reply)}
    (h : p.Meets (noting note sound) accepts s) (htries : Tries p attempts none) :
    sound (attempts.foldl note s) := by
  generalize ha : (none : Option α) = a? at htries
  induction htries generalizing s with
  | done a => cases ha
  | waits op next => exact h.1
  | ask _ ih => exact ih (h.2 _ _ rfl) ha

/-- When a program that meets its protocol is done, the notes of its attempts are accepted. -/
theorem Meets.accepts_of_done {p : Program Op Reply α} {s : σ}
    {attempts : List (Attempt Op Reply)} {a : α}
    (h : p.Meets (noting note sound) accepts s) (htries : Tries p attempts (some a)) :
    accepts a (attempts.foldl note s) := by
  generalize ha : some a = a? at htries
  induction htries generalizing s with
  | done a' =>
    cases ha
    exact h
  | waits op next => cases ha
  | ask _ ih => exact ih (h.2 _ _ rfl) ha

end Attempts

end Program

end ClusterScaler
