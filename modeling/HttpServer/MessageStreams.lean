import Mathlib.Data.List.Basic

/-!
# Streams of self-delimiting messages

A format says which byte strings are messages and what each one means. Where no message
is the beginning of another, a stream can be cut into messages in one way only, so two
readings of the same stream differ in how far they came and in nothing else.
-/

namespace MessageStreams

universe u v

variable {Symbol : Type u} {Value : Type v}

/-- No message is the beginning of another one, and none has two meanings. -/
def PrefixFree (means : List Symbol → Value → Prop) : Prop :=
  ∀ message value other meaning, means message value → means other meaning →
    message <+: other → message = other ∧ value = meaning

/-- The stream is a message for each value, in order, and the rest. -/
inductive Reads (means : List Symbol → Value → Prop) :
    List Symbol → List Value → List Symbol → Prop
  | done (rest : List Symbol) : Reads means rest [] rest
  | next {message : List Symbol} {value : Value} {stream rest : List Symbol}
      {values : List Value} (first : means message value) (later : Reads means stream values rest) :
      Reads means (message ++ stream) (value :: values) rest

variable {means : List Symbol → Value → Prop}

theorem reads_trans {stream middle rest : List Symbol} {values more : List Value}
    (reads : Reads means stream values middle) (later : Reads means middle more rest) :
    Reads means stream (values ++ more) rest := by
  induction reads with
  | done middle => exact later
  | next first _ ih => exact .next first (ih later)

theorem reads_concat {stream rest message : List Symbol} {values : List Value} {value : Value}
    (reads : Reads means stream values (message ++ rest)) (last : means message value) :
    Reads means stream (values ++ [value]) rest :=
  reads_trans reads (.next last (.done rest))

theorem reads_extended {stream rest : List Symbol} {values : List Value}
    (reads : Reads means stream values rest) (more : List Symbol) :
    Reads means (stream ++ more) values (rest ++ more) := by
  induction reads with
  | done rest => exact .done (rest ++ more)
  | next first later ih =>
      rw [List.append_assoc]
      exact .next first ih

/-- Two readings of streams that agree as far as the shorter one goes. -/
theorem reads_comparable (prefixFree : PrefixFree means) {stream longer rest remaining : List Symbol}
    {values others : List Value} (reads : Reads means stream values rest)
    (again : Reads means longer others remaining) (agree : stream <+: longer) :
    values <+: others ∨ others <+: values := by
  induction reads generalizing longer others with
  | done rest => exact Or.inl List.nil_prefix
  | @next message value stream rest values first later ih =>
      cases again with
      | done => exact Or.inr List.nil_prefix
      | @next other meaning longer _ others second onward =>
          have same : message = other ∧ value = meaning := by
            have front := (List.prefix_append message stream).trans agree
            rcases List.prefix_or_prefix_of_prefix front (List.prefix_append other longer) with
              inside | outside
            · exact prefixFree message value other meaning first second inside
            · obtain ⟨equal, meant⟩ := prefixFree other meaning message value second first outside
              exact ⟨equal.symm, meant.symm⟩
          obtain ⟨rfl, rfl⟩ := same
          have left := (List.prefix_append_right_inj message).mp agree
          rcases ih onward left with shorter | further
          · exact Or.inl ((List.prefix_cons_inj value).mpr shorter)
          · exact Or.inr ((List.prefix_cons_inj value).mpr further)

end MessageStreams
