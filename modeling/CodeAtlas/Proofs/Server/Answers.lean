import CodeAtlas.Proofs.Server.Failures
import Mathlib

/-!
# Which lines are answered

The protocol ties the response to the identifier: a request that has one is answered, and one that
has none, a notification, is not.  The server goes by the method instead, and takes for a
notification whatever has a method of that family.  This file says which lines are answered and
with which identifier, and that the law of the protocol holds of a line exactly if its method and
its identifier agree.
-/

namespace CodeAtlas.Server

variable {line : String} {around : Surroundings} {w : Workspace} {r : Request}

theorem answer_of_read (h : Request.read line.toList = some r) : answer line around w =
    ((respond r around w).1.map fun response => response.toValue.render,
      (respond r around w).2) := by
  rw [answer, h]

theorem respond_notification (h : r.isNotification) : respond r around w = (none, w) := by
  rw [respond, if_pos h]

theorem respond_of_not_notification (h : ¬ r.isNotification) : respond r around w =
    (some { id := r.id.getD .null, outcome := (perform r around w).1 },
      (perform r around w).2) := by
  rw [respond, if_neg h]

/-- The law of the protocol for the line of a request: if the request has an identifier, then it is
answered under it, and if it has none, it is not answered. -/
def AnsweredById (r : Request) (line : String) (around : Surroundings) (w : Workspace) : Prop :=
  match r.id with
  | some id => ∃ outcome,
    (answer line around w).1 = some (Response.mk id outcome).toValue.render
  | none => (answer line around w).1 = none

/-- **Which lines are answered.**  Whatever the server remembers, the line of a request is answered
unless its method is of the family of notifications.  An answer comes under the identifier of the
request, or under null if it has none, and a line that is not answered changes nothing.  So the law
of the protocol holds of the line if and only if the methods of notifications are those of requests
without an identifier. -/
theorem answered_iff (h : Request.read line.toList = some r) :
    (r.isNotification → answer line around w = (none, w)) ∧
    (¬ r.isNotification → (answer line around w).1 = some
      (Response.mk (r.id.getD .null) (perform r around w).1).toValue.render) ∧
    (AnsweredById r line around w ↔ (r.isNotification ↔ r.id = none)) := by
  have hsilent (hr : r.isNotification) : answer line around w = (none, w) := by
    rw [answer_of_read h, respond_notification hr]
    rfl
  have hanswer (hr : ¬ r.isNotification) : (answer line around w).1 = some
      (Response.mk (r.id.getD .null) (perform r around w).1).toValue.render := by
    rw [answer_of_read h, respond_of_not_notification hr]
    rfl
  refine ⟨hsilent, hanswer, ?_⟩
  unfold AnsweredById
  cases hid : r.id with
  | none =>
    by_cases hr : r.isNotification
    · simp [hr, hsilent hr]
    · simp [hr, hanswer hr]
  | some id =>
    by_cases hr : r.isNotification
    · simp [hr, hsilent hr]
    · simp only [hr, hanswer hr, hid, Option.getD_some, reduceCtorEq, iff_true]
      exact ⟨_, rfl⟩

/-! ### A method and an identifier that do not agree -/

/-- A request to be sent a sign of life, without an identifier to send it under. -/
def pingLine : String := "\x7b\"jsonrpc\":\"2.0\",\"method\":\"ping\"\x7d"

/-- A request that waits for its answer under an identifier. -/
def noticeLine : String := "\x7b\"jsonrpc\":\"2.0\",\"id\":\"a\",\"method\":\"notifications/x\"\x7d"

theorem read_pingLine : Request.read pingLine.toList = some ⟨none, "ping", none⟩ := by
  cbv

theorem read_noticeLine :
    Request.read noticeLine.toList = some ⟨some (.text "a"), "notifications/x", none⟩ := by
  cbv

theorem answered_iff_notice : Request.read noticeLine.toList =
      some ⟨some (.text "a"), "notifications/x", none⟩ ∧
    answer noticeLine ghostAround (.new {}) = (none, .new {}) :=
  ⟨read_noticeLine, (answered_iff read_noticeLine).1 (by decide)⟩

/-- The first is answered though it has no identifier, and the second is not though it has one. -/
theorem not_answeredById :
    ¬ AnsweredById ⟨none, "ping", none⟩ pingLine ghostAround (.new {}) ∧
    (answer pingLine ghostAround (.new {})).1 =
      some "\x7b\"jsonrpc\":\"2.0\",\"id\":null,\"result\":\x7b\x7d\x7d" ∧
    ¬ AnsweredById ⟨some (.text "a"), "notifications/x", none⟩ noticeLine ghostAround (.new {}) ∧
    (answer noticeLine ghostAround (.new {})).1 = none := by
  have hping : (answer pingLine ghostAround (.new {})).1 =
      some "\x7b\"jsonrpc\":\"2.0\",\"id\":null,\"result\":\x7b\x7d\x7d" := by
    rw [answer_of_read read_pingLine]
    decide +kernel
  have hnotice : (answer noticeLine ghostAround (.new {})).1 = none := by
    rw [answer_of_read read_noticeLine]
    decide +kernel
  refine ⟨?_, hping, ?_, hnotice⟩
  · simp [AnsweredById, hping]
  · simp [AnsweredById, hnotice]

end CodeAtlas.Server
