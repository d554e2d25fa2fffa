/-
# Sessions that are closed

Whatever requests come one after another, and however their launches and prints end, no
session is left open. After each request every session that was launched has printed once and
has then been closed, and nothing else has happened (`History.IsSettled`). One request keeps
this (`answers_document`), so a run of any length does (`documents_close_sessions`).

A session is closed although printing in it may fail, and a request may stop before it has a
session. The steps of a request are taken one by one for this reason: a step that fails ends
the request, and what happened before it stays in the history.
-/

import Letterpress.Print.Session

namespace Letterpress.Print

/-! ## Steps of a request -/

namespace Work

variable {α β : Type} {x : Work α} {f : α → Work β} {a : α} {h h' : History}
  {fault : PrintFault} {b : Backend} {session : Session}

theorem run_bind_of_ok (hx : x.run.run h = (.ok a, h')) :
    (x >>= f).run.run h = (f a).run.run h' := by
  rw [ExceptT.run_bind, StateT.run_bind, hx]
  rfl

theorem run_bind_of_error (hx : x.run.run h = (.error fault, h')) :
    (x >>= f).run.run h = (.error fault, h') := by
  rw [ExceptT.run_bind, StateT.run_bind, hx]
  rfl

theorem run_launch_of_ok (hlaunch : b.launch = .ok session) (h : History) :
    (launch b).run.run h = (.ok (h.launches, session), h ++ [.launched h.launches]) := by
  rw [launch, hlaunch]
  rfl

/-- A launch that fails leaves nothing behind. -/
theorem run_launch_of_error (hlaunch : b.launch = .error fault) (h : History) :
    (launch b).run.run h = (.error fault, h) := by
  rw [launch, hlaunch]
  rfl

/-- A print that fails does not stop the request. -/
theorem run_print (number : Nat) (session : Session) (html : Text) (h : History) :
    (print number session html).run.run h =
      (.ok (session.print html), h ++ [.printed number]) := rfl

theorem run_close (number : Nat) (h : History) :
    (close number).run.run h = (.ok (), h ++ [.closed number]) := rfl

theorem run_ofExcept (result : Except PrintFault α) (h : History) :
    (MonadExcept.ofExcept result : Work α).run.run h = (result, h) := by
  cases result <;> rfl

end Work

variable {b : Backend} {html : Text} {session : Session} {fault : PrintFault}

theorem document_of_isBlankText (hblank : Text.isBlankText html = true) (h : History) :
    document b html h = (.error .noContent, h) := by
  rw [document, Work.inOwnSession, if_pos hblank]
  rfl

theorem document_of_launch_error (hblank : ¬ Text.isBlankText html = true)
    (hlaunch : b.launch = .error fault) (h : History) :
    document b html h = (.error fault, h) := by
  rw [document, Work.inOwnSession, if_neg hblank]
  exact Work.run_bind_of_error (Work.run_launch_of_error hlaunch h)

theorem document_of_launch_ok (hblank : ¬ Text.isBlankText html = true)
    (hlaunch : b.launch = .ok session) (h : History) :
    document b html h =
      (session.print html,
        h ++ [.launched h.launches, .printed h.launches, .closed h.launches]) := by
  rw [document, Work.inOwnSession, if_neg hblank,
    Work.run_bind_of_ok (Work.run_launch_of_ok hlaunch h),
    Work.run_bind_of_ok (Work.run_print ..), Work.run_bind_of_ok (Work.run_close ..),
    Work.run_ofExcept]
  simp

/-! ## Lives of sessions -/

/-- The number of the session that an event is about. -/
def Event.number : Event → Nat
  | launched number | printed number | closed number => number

namespace History

/-- Every session that was launched has printed once and has then been closed once, and nothing
has happened to any other. -/
structure IsSettled (h : History) : Prop where
  closes_eq : h.closes = h.launches
  life : ∀ number < h.launches, h.filter (fun e => e.number == number) =
    [.launched number, .printed number, .closed number]
  number_lt : ∀ e ∈ h, e.number < h.launches

theorem isSettled_nil : IsSettled [] where
  closes_eq := rfl
  life _ hnumber := absurd hnumber (Nat.not_lt_zero _)
  number_lt _ he := absurd he List.not_mem_nil

variable {h : History}

theorem launches_append_life (h : History) (number : Nat) :
    launches (h ++ [.launched number, .printed number, .closed number]) = h.launches + 1 := by
  simp [launches]

theorem closes_append_life (h : History) (number : Nat) :
    closes (h ++ [.launched number, .printed number, .closed number]) = h.closes + 1 := by
  simp [closes]

/-- One more session may live after the others. -/
theorem IsSettled.append_life (hsettled : h.IsSettled) :
    IsSettled (h ++ [.launched h.launches, .printed h.launches, .closed h.launches]) where
  closes_eq := by rw [launches_append_life, closes_append_life, hsettled.closes_eq]
  life number hnumber := by
    rw [launches_append_life] at hnumber
    rw [List.filter_append]
    rcases Nat.lt_succ_iff_lt_or_eq.mp hnumber with hearlier | rfl
    · have hother : h.launches ≠ number := Nat.ne_of_gt hearlier
      rw [hsettled.life number hearlier]
      simp [Event.number, hother]
    · have hnone : h.filter (fun e => e.number == h.launches) = [] := by
        rw [List.filter_eq_nil_iff]
        intro e he
        simpa using Nat.ne_of_lt (hsettled.number_lt e he)
      rw [hnone]
      simp [Event.number]
  number_lt e he := by
    rw [launches_append_life]
    rcases List.mem_append.mp he with hold | hnew
    · exact Nat.lt_succ_of_lt (hsettled.number_lt e hold)
    · simp only [List.mem_cons, List.not_mem_nil, or_false] at hnew
      rcases hnew with rfl | rfl | rfl <;> exact Nat.lt_succ_self _

end History

/-! ## Requests -/

/-- What a request for a print comes to, after what has happened before. -/
structure Answers (b : Backend) (html : Text) (before : History)
    (result : Except PrintFault Octets) (after : History) : Prop where
  settled : after.IsSettled
  /-- A session is launched exactly if there is something to print and launching succeeds. -/
  launches : after.launches =
    before.launches + if !Text.isBlankText html && b.launch.isOk then 1 else 0
  blank : Text.isBlankText html = true → result = .error .noContent
  notLaunched : ∀ fault, Text.isBlankText html = false → b.launch = .error fault →
    result = .error fault
  printed : ∀ session, Text.isBlankText html = false → b.launch = .ok session →
    result = session.print html

/-- A request leaves no session open if none was open before it. -/
theorem answers_document (b : Backend) (html : Text) {before : History}
    (hsettled : before.IsSettled) :
    Answers b html before (document b html before).1 (document b html before).2 := by
  by_cases hblank : Text.isBlankText html = true
  · rw [document_of_isBlankText hblank]
    exact ⟨hsettled, by simp [hblank], fun _ => rfl, by simp [hblank], by simp [hblank]⟩
  · cases hlaunch : b.launch with
    | error fault =>
        rw [document_of_launch_error hblank hlaunch]
        exact ⟨hsettled, by simp [hlaunch, Except.isOk, Except.toBool], by simp [hblank],
          by simp [hlaunch], by simp [hlaunch]⟩
    | ok session =>
        rw [document_of_launch_ok hblank hlaunch]
        exact ⟨hsettled.append_life,
          by simp [hblank, hlaunch, Except.isOk, Except.toBool, History.launches_append_life],
          by simp [hblank], by simp [hlaunch], by simp [hlaunch]⟩

/-! ## Runs -/

/-- A request: what begins its session, and what is to be printed. -/
abbrev Request := Backend × Text

/-- The history that the last of some answers shows, or `h` if there are none. -/
def lastHistory (h : History) (answers : List (Except PrintFault Octets × History)) : History :=
  (answers.getLast?.map Prod.snd).getD h

theorem lastHistory_cons (h : History) (answer : Except PrintFault Octets × History)
    (answers : List (Except PrintFault Octets × History)) :
    lastHistory h (answer :: answers) = lastHistory answer.2 answers := by
  rw [lastHistory, lastHistory, List.getLast?_cons]
  cases answers.getLast? <;> rfl

theorem documents_cons (b : Backend) (html : Text) (later : List Request) (h : History) :
    documents ((b, html) :: later) h =
      document b html h :: documents later (document b html h).2 := rfl

/-- Later requests are answered after what earlier ones have left. -/
theorem documents_append (earlier later : List Request) (h : History) :
    documents (earlier ++ later) h =
      documents earlier h ++ documents later (lastHistory h (documents earlier h)) := by
  induction earlier generalizing h with
  | nil => rfl
  | cons request earlier ih =>
      rw [List.cons_append, documents_cons, documents_cons, lastHistory_cons, ih,
        List.cons_append]

theorem isSettled_lastHistory (requests : List Request) {h : History} (hsettled : h.IsSettled) :
    (lastHistory h (documents requests h)).IsSettled := by
  induction requests generalizing h with
  | nil => exact hsettled
  | cons request requests ih =>
      rw [documents_cons, lastHistory_cons]
      exact ih (answers_document request.1 request.2 hsettled).settled

/-- In every run of requests each one is answered by its own launch and print alone, and leaves
no session open. -/
theorem documents_close_sessions (earlier : List Request) (b : Backend) (html : Text)
    (later : List Request) :
    ∃ result after rest,
      documents (earlier ++ (b, html) :: later) [] =
        documents earlier [] ++ (result, after) :: rest ∧
      Answers b html (lastHistory [] (documents earlier [])) result after := by
  have hbefore := isSettled_lastHistory earlier History.isSettled_nil
  refine ⟨_, _, documents later (document b html (lastHistory [] (documents earlier []))).2, ?_,
    answers_document b html hbefore⟩
  rw [documents_append, documents_cons]

end Letterpress.Print
