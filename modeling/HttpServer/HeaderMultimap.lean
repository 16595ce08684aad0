import HttpServer.HttpRequest
import HttpServer.OrderedMultimap

/-!
# `HttpHeaders` is an ordered multimap

Names are identified up to letter case: `folded` is the class of a name. The
reference replays the calls on a multimap over these classes and knows nothing of
the vector of fields; `collect` reads the same multimap off the vector.
-/

namespace HttpServer.HeaderMultimap

open OrderedMultimap

def folded (name : Bytes) : Bytes := name.map utils.toLower

inductive HeaderCall where
  | add (name value : Bytes)
  | set (name value : Bytes)
  | clear

namespace HeaderCall

def apply (headers : HttpHeaders) : HeaderCall → HttpHeaders
  | .add name value => headers.add name value
  | .set name value => headers.set name value
  | .clear => headers.clear

def replay (map : Multimap Bytes Bytes) : HeaderCall → Multimap Bytes Bytes
  | .add name value => append map (folded name) value
  | .set name value => replace map (folded name) value
  | .clear => fun _ => []

end HeaderCall

def built (calls : List HeaderCall) : HttpHeaders := calls.foldl HeaderCall.apply {}

def reference (calls : List HeaderCall) : Multimap Bytes Bytes :=
  calls.foldl HeaderCall.replay fun _ => []

/-- The stored fields, each under the class of its name. -/
def entries (headers : HttpHeaders) : List (Bytes × Bytes) :=
  headers.headers.map fun header => (folded header.1, header.2)

/-- What the observers of `HttpHeaders` answer, in terms of the multimap. -/
structure Observes (headers : HttpHeaders) (map : Multimap Bytes Bytes) : Prop where
  values : ∀ name, headers.values name = map (folded name)
  get : ∀ name, headers.get name = (map (folded name)).headD []
  contains : ∀ name, headers.contains name = true ↔ map (folded name) ≠ []
  size : ∃ names : Finset Bytes, (∀ name, map name ≠ [] ↔ name ∈ names) ∧
    headers.size = ∑ name ∈ names, (map name).length
  casing : ∀ name other, folded name = folded other →
    headers.values name = headers.values other ∧ headers.get name = headers.get other ∧
      headers.contains name = headers.contains other
  frame : ∀ name value other, folded other ≠ folded name →
    (headers.set name value).values other = headers.values other

section Observers

variable (headers : HttpHeaders) (name value : Bytes)

theorem same_name_iff (left right : Bytes) :
    HttpHeaders.equalsIgnoreCase left right = true ↔ folded left = folded right :=
  utils.equals_ignore_case_iff left right

theorem values_collected : headers.values name = collect (entries headers) (folded name) := by
  rw [HttpHeaders.values, collect, entries, List.filter_map, List.map_map]
  congr 1
  apply List.filter_congr
  intro header _
  rw [Bool.eq_iff_iff, same_name_iff, Function.comp, decide_eq_true_eq]

theorem contains_iff : headers.contains name = true ↔ headers.values name ≠ [] := by
  rw [HttpHeaders.contains, HttpHeaders.values, ne_eq, List.map_eq_nil_iff, List.filter_eq_nil_iff,
    List.any_eq_true]
  push Not
  rfl

theorem entries_add : entries (headers.add name value) = entries headers ++ [(folded name, value)] := by
  rw [entries, HttpHeaders.add, List.map_append, entries, List.map_singleton]

theorem entries_set :
    entries (headers.set name value) =
      ((entries headers).filter fun entry => entry.1 ≠ folded name) ++ [(folded name, value)] := by
  rw [entries, HttpHeaders.set, List.map_append, List.map_singleton, entries, List.filter_map]
  congr 2
  apply List.filter_congr
  intro header _
  rw [Bool.eq_iff_iff, Bool.not_eq_true', ← Bool.not_eq_true, same_name_iff, Function.comp,
    decide_eq_true_eq]

theorem collect_apply (call : HeaderCall) :
    collect (entries (call.apply headers)) = call.replay (collect (entries headers)) := by
  cases call with
  | add name value =>
      rw [HeaderCall.apply, entries_add]
      exact collect_concat _ _ _
  | set name value =>
      rw [HeaderCall.apply, entries_set]
      exact collect_replace _ _ _
  | clear => rfl

theorem collect_built (calls : List HeaderCall) :
    collect (entries (built calls)) = reference calls := by
  unfold built reference
  induction calls using List.reverseRecOn with
  | nil => rfl
  | append_singleton calls call ih =>
      rw [List.foldl_append, List.foldl_append, List.foldl_cons, List.foldl_nil, List.foldl_cons,
        List.foldl_nil, collect_apply, ih]

theorem size_collected :
    headers.size = ∑ key ∈ ((entries headers).map Prod.fst).toFinset,
      (collect (entries headers) key).length := by
  rw [← length_eq_sum, entries, List.length_map, HttpHeaders.size]
  intro entry member
  rw [List.mem_toFinset]
  exact List.mem_map_of_mem member

theorem observes_collected : Observes headers (collect (entries headers)) where
  values := values_collected headers
  get := by
    intro name
    rw [HttpHeaders.get_eq_head_values, values_collected]
  contains := by
    intro name
    rw [contains_iff, values_collected]
  size := ⟨_, collect_ne_nil_iff (entries headers), size_collected headers⟩
  casing := by
    intro name other same
    have values : headers.values name = headers.values other := by
      rw [values_collected, values_collected, same]
    refine ⟨values, ?_, ?_⟩
    · rw [HttpHeaders.get_eq_head_values, HttpHeaders.get_eq_head_values, values]
    · rw [Bool.eq_iff_iff, contains_iff, contains_iff, values]
  frame := by
    intro name value other different
    rw [values_collected, values_collected, entries_set, collect_replace, replace,
      Function.update_of_ne different]

end Observers

/-- After any calls the observers answer from the replayed multimap. -/
theorem headers_are_multimap (calls : List HeaderCall) :
    Observes (built calls) (reference calls) := by
  rw [← collect_built]
  exact observes_collected (built calls)

end HttpServer.HeaderMultimap
