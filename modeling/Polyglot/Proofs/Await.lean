import Polyglot.Proofs.Lines

/-!
# Waiting for a line

What a worker does reaches a channel in pieces: some output is buffered, the rest comes
in chunks of any size. Taken byte by byte, what is ahead of a channel is one stream, and
the stream is all that a wait depends on (`sought_await`). Two channels with the same
stream ahead therefore answer alike, however their output is cut.

A line that a wait takes is the first complete line of the stream, and the bytes behind
its line break stay ahead (`bytes_of_seek`).
-/

set_option autoImplicit false

namespace Polyglot

open Polyglot.Host (Event Exit)
open Polyglot.Text (Bytes)

variable {ω σ : Type}

/-! ## The stream -/

/-- What a worker does, with its output byte by byte. -/
inductive Deed where
  /-- It writes a byte. -/
  | byte (byte : UInt8)
  /-- It lets time pass. -/
  | pause (milliseconds : Nat)
  /-- It ends. -/
  | ended (exit : Exit)

/-- Some events, with their output byte by byte. -/
def deedsOf : List Event → List Deed
  | [] => []
  | .output bytes :: events => bytes.map .byte ++ deedsOf events
  | .pause milliseconds :: events => .pause milliseconds :: deedsOf events
  | .ended exit :: events => .ended exit :: deedsOf events

/-- The bytes that are written in a stream. -/
def bytesOf : List Deed → Bytes
  | [] => []
  | .byte byte :: ahead => byte :: bytesOf ahead
  | .pause _ :: ahead => bytesOf ahead
  | .ended _ :: ahead => bytesOf ahead

/-- The output of some events. -/
def spokenIn (events : List Event) : Bytes :=
  bytesOf (deedsOf events)

theorem deedsOf_append (first second : List Event) :
    deedsOf (first ++ second) = deedsOf first ++ deedsOf second := by
  induction first with
  | nil => rfl
  | cons event first ih =>
      cases event with
      | output bytes => simp [deedsOf, ih]
      | pause milliseconds => simp [deedsOf, ih]
      | ended exit => simp [deedsOf, ih]

@[simp] theorem bytesOf_append (first second : List Deed) :
    bytesOf (first ++ second) = bytesOf first ++ bytesOf second := by
  induction first with
  | nil => rfl
  | cons deed first ih =>
      cases deed with
      | byte byte => simp [bytesOf, ih]
      | pause milliseconds => simp [bytesOf, ih]
      | ended exit => simp [bytesOf, ih]

@[simp] theorem bytesOf_map_byte (bytes : Bytes) : bytesOf (bytes.map .byte) = bytes := by
  induction bytes with
  | nil => rfl
  | cons byte bytes ih => simp [bytesOf, ih]

namespace Pipes

/-- What is ahead of a channel. -/
def ahead (pipes : Pipes σ) : List Deed :=
  pipes.buffered.map .byte ++ deedsOf pipes.pending

/-- The output that was not taken, whether it has arrived or not. -/
def unread (pipes : Pipes σ) : Bytes :=
  bytesOf pipes.ahead

theorem unread_eq (pipes : Pipes σ) :
    pipes.unread = pipes.buffered ++ spokenIn pipes.pending := by
  rw [unread, ahead, bytesOf_append, bytesOf_map_byte]
  rfl

/-- While time passes no output comes or goes. -/
theorem unread_pass (worker : σ) (milliseconds : Nat) (buffered : Bytes) (events : List Event) :
    (⟨worker, events, buffered⟩ : Pipes σ).unread =
      (⟨worker, .pause milliseconds :: events, buffered⟩ : Pipes σ).unread := by
  simp [unread_eq, spokenIn, deedsOf, bytesOf]

end Pipes

/-! ## Reading off what a wait comes to -/

/-- What a wait comes to, with what is then ahead. -/
inductive Sought where
  /-- A line. -/
  | line (bytes : Bytes) (ahead : List Deed)
  /-- The output ends without one. -/
  | gone
  /-- No line comes in time. -/
  | late

/-- The stream behind what a wait came to. -/
def Awaited.sought : Awaited → Sought
  | .line bytes buffered pending => .line bytes (buffered.map .byte ++ deedsOf pending)
  | .gone => .gone
  | .late => .late

/-- The time that is left after a pause, if the wait is not over before. -/
def elapse : Option Nat → Nat → Option (Option Nat)
  | none, _ => some none
  | some left, milliseconds => if milliseconds < left then some (some (left - milliseconds)) else none

/-- What a wait comes to that has seen the beginning of a line. -/
def seek : Option Nat → Bytes → List Deed → Sought
  | _, _, [] => .late
  | left, begun, .byte byte :: ahead =>
    if byte = 10 then .line begun ahead else seek left (begun ++ [byte]) ahead
  | left, begun, .pause milliseconds :: ahead =>
    match elapse left milliseconds with
    | some left => seek left begun ahead
    | none => .late
  | _, _, .ended _ :: _ => .gone

/-- A wait sees the bytes before a line break as the beginning of a line. -/
theorem seek_of_unbroken (left : Option Nat) (begun : Bytes) {bytes : Bytes}
    (unbroken : 10 ∉ bytes) (ahead : List Deed) :
    seek left begun (bytes.map .byte ++ ahead) = seek left (begun ++ bytes) ahead := by
  induction bytes generalizing begun with
  | nil => simp
  | cons byte bytes ih =>
      obtain ⟨other, rest⟩ := not_or.mp (mt List.mem_cons.mpr unbroken)
      rw [List.map_cons, List.cons_append, seek, if_neg (Ne.symm other), ih _ rest,
        List.append_assoc]
      rfl

/-- A wait ends at the first line break. -/
theorem seek_of_line (left : Option Nat) {line : Bytes} (unbroken : 10 ∉ line) (rest : Bytes)
    (ahead : List Deed) :
    seek left [] ((line ++ 10 :: rest).map .byte ++ ahead) =
      .line line (rest.map .byte ++ ahead) := by
  rw [List.map_append, List.append_assoc, seek_of_unbroken left [] unbroken]
  rfl

/-- A wait that goes on after a pause comes to the same with the time that is left. -/
theorem Pipes.seek_pass {left still : Option Nat} (worker : σ) {milliseconds : Nat}
    {buffered : Bytes} (events : List Event) (unbroken : takeLine? buffered = none)
    (inTime : elapse left milliseconds = some still) :
    seek still [] (⟨worker, events, buffered⟩ : Pipes σ).ahead =
      seek left [] (⟨worker, .pause milliseconds :: events, buffered⟩ : Pipes σ).ahead := by
  have plain := takeLine?_eq_none_iff.mp unbroken
  simp only [Pipes.ahead, deedsOf, seek_of_unbroken _ _ plain, seek, inTime]

/-- A wait is over at once when a line has arrived. -/
theorem await_of_line {left : Option Nat} {buffered line rest : Bytes} {events : List Event}
    (taken : takeLine? buffered = some (line, rest)) :
    await left buffered events = .line line rest events := by
  rw [await.eq_def]
  simp only [taken]

/-- A wait goes on with the next event when no line has arrived. -/
theorem await_of_unbroken {left : Option Nat} {buffered : Bytes} {events : List Event}
    (taken : takeLine? buffered = none) :
    await left buffered events =
      match events with
      | [] => .late
      | .output bytes :: events => await left (buffered ++ bytes) events
      | .ended _ :: _ => .gone
      | .pause milliseconds :: events =>
        match elapse left milliseconds with
        | some left => await left buffered events
        | none => .late := by
  rw [await.eq_def]
  simp only [taken]
  rcases events with _ | ⟨_ | _ | _, events⟩ <;> try rfl
  rename_i milliseconds
  cases left with
  | none => rfl
  | some left => by_cases inTime : milliseconds < left <;> simp [elapse, inTime]

/-- **A wait depends on the stream only**, not on what of it is buffered and in which
chunks the rest comes. -/
theorem sought_await (left : Option Nat) (buffered : Bytes) (events : List Event) :
    (await left buffered events).sought =
      seek left [] (buffered.map .byte ++ deedsOf events) := by
  induction events generalizing left buffered with
  | nil =>
      cases taken : takeLine? buffered with
      | some pair =>
          obtain ⟨unbroken, rfl⟩ := takeLine?_eq_some_iff.mp taken
          rw [await_of_line taken, seek_of_line left unbroken]
          rfl
      | none =>
          rw [await_of_unbroken taken, seek_of_unbroken left [] (takeLine?_eq_none_iff.mp taken)]
          rfl
  | cons event events ih =>
      cases taken : takeLine? buffered with
      | some pair =>
          obtain ⟨unbroken, rfl⟩ := takeLine?_eq_some_iff.mp taken
          rw [await_of_line taken, seek_of_line left unbroken]
          rfl
      | none =>
          have unbroken := takeLine?_eq_none_iff.mp taken
          rw [await_of_unbroken taken]
          cases event with
          | output bytes => simpa [deedsOf] using ih left (buffered ++ bytes)
          | ended exit =>
              rw [seek_of_unbroken left [] unbroken]
              rfl
          | pause milliseconds =>
              rw [seek_of_unbroken left [] unbroken, deedsOf, seek]
              simp only
              cases elapse left milliseconds with
              | none => rfl
              | some left => exact (ih left buffered).trans (seek_of_unbroken left [] unbroken _)

/-- **The line that a wait takes is the next line of the stream**, and the bytes behind
its line break stay ahead. -/
theorem bytes_of_seek {left : Option Nat} {begun line : Bytes} {stream ahead : List Deed}
    (fresh : 10 ∉ begun) (found : seek left begun stream = .line line ahead) :
    10 ∉ line ∧ begun ++ bytesOf stream = line ++ 10 :: bytesOf ahead := by
  induction stream generalizing left begun with
  | nil => cases found
  | cons deed stream ih =>
      cases deed with
      | byte byte =>
          rw [seek] at found
          split at found
          · rename_i stops
            cases found
            exact ⟨fresh, by rw [bytesOf, stops]⟩
          · rename_i other
            have longer : 10 ∉ begun ++ [byte] := by
              simpa using ⟨fresh, Ne.symm other⟩
            simpa [bytesOf] using ih longer found
      | pause milliseconds =>
          rw [seek] at found
          split at found
          · exact ih fresh found
          · cases found
      | ended exit => cases found

/-! ## Whether the worker has ended -/

/-- Whether the worker has ended by now, whatever it has written. -/
def endsNow : List Deed → Bool
  | [] => false
  | .byte _ :: ahead => endsNow ahead
  | .pause _ :: _ => false
  | .ended _ :: _ => true

theorem endsNow_map_byte_append (bytes : Bytes) (ahead : List Deed) :
    endsNow (bytes.map .byte ++ ahead) = endsNow ahead := by
  induction bytes with
  | nil => rfl
  | cons byte bytes ih => exact ih

theorem hasEnded_eq_endsNow (events : List Event) : hasEnded events = endsNow (deedsOf events) := by
  induction events with
  | nil => rfl
  | cons event events ih =>
      cases event with
      | output bytes => rw [hasEnded, deedsOf, endsNow_map_byte_append, ih]
      | pause milliseconds => rfl
      | ended exit => rfl

theorem Pipes.hasEnded_pending (pipes : Pipes σ) : hasEnded pipes.pending = endsNow pipes.ahead := by
  rw [hasEnded_eq_endsNow, Pipes.ahead, endsNow_map_byte_append]

end Polyglot
