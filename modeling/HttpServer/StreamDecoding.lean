import HttpServer.MeasuredLoop
import Mathlib.Data.List.Basic

/-!
# Decoding a stream that arrives in pieces

A `Decoder` looks at a buffer and takes one item off its front, asks for more or
refuses. `feed` is the loop around it: append a piece, decode until more is asked
for, go on with the next piece. For a `Format` (a self-delimiting encoding of
which no proper prefix can be decoded), the items that come out do not depend on
where the stream was cut.
-/

namespace StreamDecoding

open MeasuredLoop

universe u v w

inductive Decoding (Symbol : Type u) (Item : Type v) where
  | complete (item : Item) (rest : List Symbol)
  | incomplete (left : List Symbol)
  | failed

structure Decoder (Symbol : Type u) (Item : Type v) where
  decode : List Symbol → Decoding Symbol Item
  shrinks : ∀ buffer item rest, decode buffer = .complete item rest → rest.length < buffer.length

variable {Symbol : Type u} {Item : Type v} {Source : Type w}

namespace Decoder

variable (decoder : Decoder Symbol Item)

def turn (cursor : List Symbol × List Item) :
    Turn (List Symbol × List Item) (Option (List Item × List Symbol)) :=
  match decoder.decode cursor.1 with
  | .complete item rest => .next (rest, cursor.2 ++ [item])
  | .incomplete left => .done (some (cursor.2, left))
  | .failed => .done none

theorem turn_decreases (cursor following : List Symbol × List Item)
    (turned : decoder.turn cursor = .next following) :
    following.1.length < cursor.1.length := by
  simp only [turn] at turned
  split at turned
  · rename_i item rest decoded
    cases turned
    exact decoder.shrinks _ _ _ decoded
  · cases turned
  · cases turned

def loop : Loop (List Symbol × List Item) (Option (List Item × List Symbol)) where
  turn := decoder.turn
  rank := fun cursor => cursor.1.length
  decreases := decoder.turn_decreases

/-- Decode until more is asked for; the items are added to those before. -/
def drain (items : List Item) (buffer : List Symbol) : Option (List Item × List Symbol) :=
  decoder.loop.run (buffer, items)

def feed (items : List Item) (buffer : List Symbol) :
    List (List Symbol) → Option (List Item × List Symbol)
  | [] => some (items, buffer)
  | piece :: pieces =>
      (decoder.drain items (buffer ++ piece)).bind fun drained =>
        feed drained.1 drained.2 pieces

theorem drain_complete {items : List Item} {buffer rest : List Symbol} {item : Item}
    (decoded : decoder.decode buffer = .complete item rest) :
    decoder.drain items buffer = decoder.drain (items ++ [item]) rest := by
  apply decoder.loop.run_next
  simp only [loop, turn, decoded]

theorem drain_incomplete {items : List Item} {buffer left : List Symbol}
    (decoded : decoder.decode buffer = .incomplete left) :
    decoder.drain items buffer = some (items, left) := by
  apply decoder.loop.run_done
  simp only [loop, turn, decoded]

end Decoder

/-- An encoding that the decoder reads back whatever follows, and of which it
reads nothing before the last symbol has come. -/
structure Format (decoder : Decoder Symbol Item) (Source : Type w) where
  encode : Source → List Symbol
  value : Source → Item
  empty : decoder.decode [] = .incomplete []
  whole : ∀ source rest, decoder.decode (encode source ++ rest) = .complete (value source) rest
  short : ∀ source buffer missing, buffer ++ missing = encode source → missing ≠ [] →
    decoder.decode buffer = .incomplete buffer

namespace Format

variable {decoder : Decoder Symbol Item} (format : Format decoder Source)

/-- The buffer holds less than the next source, or nothing when there is none. -/
def Stalled (buffer : List Symbol) : List Source → Prop
  | [] => buffer = []
  | source :: _ => ∃ missing, missing ≠ [] ∧ buffer ++ missing = format.encode source

theorem encode_ne_nil (source : Source) : format.encode source ≠ [] := by
  intro blank
  have read := format.whole source []
  have shorter := decoder.shrinks _ _ _ read
  rw [blank] at shorter
  exact Nat.lt_irrefl _ shorter

theorem stalled_nil (sources : List Source) : format.Stalled [] sources := by
  cases sources with
  | nil => rfl
  | cons source sources => exact ⟨format.encode source, format.encode_ne_nil source, rfl⟩

theorem stalled_end {buffer : List Symbol} {sources : List Source}
    (stalled : format.Stalled buffer sources)
    (whole : buffer = sources.flatMap format.encode) : sources = [] ∧ buffer = [] := by
  cases sources with
  | nil => exact ⟨rfl, stalled⟩
  | cons source sources =>
      obtain ⟨missing, lacks, completed⟩ := stalled
      have longer := congrArg List.length completed
      have present := congrArg List.length whole
      rw [List.flatMap_cons, List.length_append] at present
      rw [List.length_append] at longer
      have positive := List.length_pos_iff.mpr lacks
      omega

theorem drain_part (sources : List Source) (items : List Item) (buffer later : List Symbol)
    (stream : buffer ++ later = sources.flatMap format.encode) :
    ∃ taken pending left, sources = taken ++ pending ∧
      decoder.drain items buffer = some (items ++ taken.map format.value, left) ∧
      left ++ later = pending.flatMap format.encode ∧ format.Stalled left pending := by
  induction sources generalizing items buffer with
  | nil =>
      have nothing : buffer = [] := (List.append_eq_nil_iff.mp stream).1
      subst nothing
      refine ⟨[], [], [], rfl, ?_, stream, rfl⟩
      rw [decoder.drain_incomplete format.empty, List.map_nil, List.append_nil]
  | cons source sources ih =>
      rw [List.flatMap_cons] at stream
      rcases List.append_eq_append_iff.mp stream with
        ⟨missing, completed, remaining⟩ | ⟨rest, extended, remaining⟩
      · by_cases whole : missing = []
        · subst whole
          rw [List.append_nil] at completed
          obtain ⟨taken, pending, left, split, drained, onward, stalled⟩ :=
            ih (items ++ [format.value source]) [] remaining
          refine ⟨source :: taken, pending, left, by rw [split, List.cons_append], ?_, onward,
            stalled⟩
          have read := format.whole source []
          rw [List.append_nil, completed] at read
          rw [decoder.drain_complete read, drained, List.map_cons, List.append_assoc,
            List.singleton_append]
        · refine ⟨[], source :: sources, buffer, rfl, ?_, ?_, missing, whole, completed.symm⟩
          · have decoded := format.short source buffer missing completed.symm whole
            rw [decoder.drain_incomplete decoded, List.map_nil, List.append_nil]
          · rw [List.flatMap_cons]
            exact stream
      · obtain ⟨taken, pending, left, split, drained, onward, stalled⟩ :=
          ih (items ++ [format.value source]) rest remaining.symm
        refine ⟨source :: taken, pending, left, by rw [split, List.cons_append], ?_, onward,
          stalled⟩
        rw [extended, decoder.drain_complete (format.whole source rest), drained, List.map_cons,
          List.append_assoc, List.singleton_append]

theorem feed_stalled (pieces : List (List Symbol)) (sources : List Source) (items : List Item)
    (buffer : List Symbol) (stalled : format.Stalled buffer sources)
    (stream : buffer ++ pieces.flatten = sources.flatMap format.encode) :
    decoder.feed items buffer pieces = some (items ++ sources.map format.value, []) := by
  induction pieces generalizing sources items buffer with
  | nil =>
      rw [List.flatten_nil, List.append_nil] at stream
      obtain ⟨rfl, rfl⟩ := format.stalled_end stalled stream
      rw [Decoder.feed, List.map_nil, List.append_nil]
  | cons piece pieces ih =>
      rw [List.flatten_cons, ← List.append_assoc] at stream
      obtain ⟨taken, pending, left, split, drained, onward, still⟩ :=
        format.drain_part sources items (buffer ++ piece) pieces.flatten stream
      rw [Decoder.feed, drained, Option.bind_some, ih pending _ left still onward, split,
        List.map_append, List.append_assoc]

/-- However the stream is cut, feeding it gives the values of its sources. -/
theorem feed_pieces (pieces : List (List Symbol)) (sources : List Source)
    (stream : pieces.flatten = sources.flatMap format.encode) :
    decoder.feed [] [] pieces = some (sources.map format.value, []) := by
  have fed := format.feed_stalled pieces sources [] [] (format.stalled_nil sources) stream
  rwa [List.nil_append] at fed

end Format

end StreamDecoding
