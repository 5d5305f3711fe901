import LiveDetection.Failure
import LiveDetection.Message.Basic

/-!
# Publishers

A publisher hands messages to named queues. Delivery is the business of whatever is behind
the queues.
-/

namespace LiveDetection

/-- A publisher with state `π`. -/
class Publisher (π : Type) where
  /-- Hand a message to a queue. -/
  publish : String → Message → π → Except RunError Unit × π

/-- Hand over messages, each to its queue, until one fails. -/
def publishAll {π : Type} [Publisher π] :
    List (String × Message) → π → Except RunError Unit × π
  | [], p => (.ok (), p)
  | (queue, message) :: rest, p =>
    match Publisher.publish queue message p with
    | (.ok (), p) => publishAll rest p
    | failed => failed

/-- Hand over messages, each to its queue, whether or not those before it failed. -/
def publishEach {π : Type} [Publisher π] :
    List (String × Message) → π → List (Except RunError Unit) × π
  | [], p => ([], p)
  | (queue, message) :: rest, p =>
    let first := Publisher.publish queue message p
    let others := publishEach rest first.2
    (first.1 :: others.1, others.2)

section

variable {π : Type} [Publisher π]

/-- What every message leaves as it is stays as it is, however many messages are handed over. -/
theorem publishAll_preserves {P : π → Prop}
    (hstep : ∀ queue message p, P p → P (Publisher.publish queue message p).2) {p : π} (h : P p)
    (messages : List (String × Message)) : P (publishAll messages p).2 := by
  induction messages generalizing p with
  | nil => exact h
  | cons first rest ih =>
    have hfirst := hstep first.1 first.2 p h
    rw [publishAll]
    rcases hpublish : Publisher.publish first.1 first.2 p with ⟨_ | _, next⟩
    · rw [hpublish] at hfirst
      exact hfirst
    · rw [hpublish] at hfirst
      exact ih hfirst

@[simp] theorem length_publishEach (messages : List (String × Message)) (p : π) :
    (publishEach messages p).1.length = messages.length := by
  induction messages generalizing p with
  | nil => rfl
  | cons first rest ih => simp [publishEach, ih]

theorem publishEach_append (front back : List (String × Message)) (p : π) :
    publishEach (front ++ back) p =
      ((publishEach front p).1 ++ (publishEach back (publishEach front p).2).1,
        (publishEach back (publishEach front p).2).2) := by
  induction front generalizing p with
  | nil => rfl
  | cons first rest ih => simp [publishEach, ih]

/-- The last message is handed to what those before it leave behind. -/
theorem publishEach_concat (front : List (String × Message)) (last : String × Message) (p : π) :
    publishEach (front ++ [last]) p =
      ((publishEach front p).1 ++ [(Publisher.publish last.1 last.2 (publishEach front p).2).1],
        (Publisher.publish last.1 last.2 (publishEach front p).2).2) :=
  publishEach_append front [last] p

/-- The answer to a message is the one that it gets behind those before it. -/
theorem getElem?_publishEach_eq_some {messages : List (String × Message)} {p : π} {i : Nat}
    {answer : Except RunError Unit} :
    (publishEach messages p).1[i]? = some answer ↔ ∃ h : i < messages.length,
      answer = (Publisher.publish messages[i].1 messages[i].2
        (publishEach (messages.take i) p).2).1 := by
  induction messages generalizing i p with
  | nil => simp [publishEach]
  | cons first rest ih =>
    cases i with
    | zero => simp [publishEach, eq_comm]
    | succ i => simpa [publishEach] using ih

end

end LiveDetection
