import TapeMachine.Proofs.Yaml.Tokens
import TapeMachine.Yaml.Document

/-!
From the tokens of a text of lines to the mapping that they are: its keys and values are the words
of the entries, in their order.
-/

namespace TapeMachine.Yaml

namespace Event

variable {handles : Handles} {tokens rest : List Token} {goals : List Goal} {bound : Nat}
  {entries : List (List Char × List Char)}

/-- The events of an entry. -/
def entryKinds (entry : List Char × List Char) : List EventKind :=
  [.scalar .empty .plain entry.1, .scalar .empty .plain entry.2]

theorem step?_blockKey {text : List Char} {key scalar : Token} (hkey : key.kind = .key)
    (hscalar : scalar.kind = .scalar .plain text) :
    step? handles goals .blockKey (key :: scalar :: rest) = some
      ⟨⟨.scalar .empty .plain text, scalar.start⟩, .blockValue :: .blockKey :: goals, rest⟩ := by
  obtain ⟨_, _, _⟩ := key
  obtain ⟨_, _, _⟩ := scalar
  subst hkey hscalar
  rfl

theorem step?_blockValue {text : List Char} {value scalar : Token} (hvalue : value.kind = .value)
    (hscalar : scalar.kind = .scalar .plain text) :
    step? handles goals .blockValue (value :: scalar :: rest) =
      some ⟨⟨.scalar .empty .plain text, scalar.start⟩, goals, rest⟩ := by
  obtain ⟨_, _, _⟩ := value
  obtain ⟨_, _, _⟩ := scalar
  subst hvalue hscalar
  rfl

theorem step?_blockEnd {token : Token} (h : token.kind = .blockEnd) :
    step? handles goals .blockKey (token :: rest) =
      some ⟨⟨.mappingEnd, token.start⟩, goals, rest⟩ := by
  obtain ⟨_, _, _⟩ := token
  subst h
  rfl

theorem step?_blockMappingStart {token : Token} (h : token.kind = .blockMappingStart) :
    step? handles goals (.node true false) (token :: rest) =
      some ⟨⟨.mappingStart .empty, token.start⟩, .blockKey :: goals, rest⟩ := by
  obtain ⟨_, _, _⟩ := token
  subst h
  rfl

theorem eventsFrom?_succ {goal : Goal} {s : Step} (h : step? handles goals goal tokens = some s) :
    eventsFrom? handles (bound + 1) (goal :: goals) tokens = (do
      let (events, rest) ← eventsFrom? handles bound s.goals s.tokens
      return (s.event :: events, rest)) := by
  rw [eventsFrom?, h]
  rfl

/-- The entries of a mapping, and its end. -/
theorem exists_eventsFrom?_entries (handles : Handles) {after : List TokenKind}
    (htokens : tokens.map Token.kind =
      entries.flatMap Yaml.entryKinds ++ .blockEnd :: after)
    (hbound : 2 * entries.length < bound) :
    ∃ events rest, eventsFrom? handles bound [.blockKey] tokens = some (events, rest) ∧
      events.map Event.kind = entries.flatMap entryKinds ++ [.mappingEnd] ∧
      rest.map Token.kind = after := by
  induction entries generalizing tokens bound with
  | nil =>
      obtain ⟨token, rest, rfl, htoken, hrest⟩ := List.map_eq_cons_iff.mp htokens
      obtain ⟨bound, rfl⟩ : ∃ n, bound = n + 1 := Nat.exists_eq_add_one.mpr (by omega)
      refine ⟨[⟨.mappingEnd, token.start⟩], rest, ?_, rfl, hrest⟩
      rw [eventsFrom?_succ (step?_blockEnd htoken)]
      simp [eventsFrom?]
  | cons entry entries ih =>
      simp only [List.flatMap_cons, Yaml.entryKinds, List.cons_append, List.nil_append,
        List.map_eq_cons_iff] at htokens
      obtain ⟨key, _, rfl, hkey, name, _, rfl, hname, value, _, rfl, hvalue, scalar, rest, rfl,
        hscalar, hrest⟩ := htokens
      rw [List.length_cons] at hbound
      obtain ⟨bound, rfl⟩ : ∃ n, bound = n + 2 := ⟨bound - 2, by omega⟩
      obtain ⟨events, rest', hevents, hkinds, hafter⟩ := ih hrest (by omega : _ < bound)
      refine ⟨⟨.scalar .empty .plain entry.1, name.start⟩ ::
        ⟨.scalar .empty .plain entry.2, scalar.start⟩ :: events, rest', ?_, ?_, hafter⟩
      · rw [eventsFrom?_succ (step?_blockKey hkey hname),
          eventsFrom?_succ (step?_blockValue hvalue hscalar), hevents]
        rfl
      · simp [entryKinds, hkinds]

theorem length_flatMap_entryKinds (entries : List (List Char × List Char)) :
    (entries.flatMap Yaml.entryKinds).length = 4 * entries.length := by
  induction entries with
  | nil => rfl
  | cons entry entries ih =>
      rw [List.flatMap_cons, List.length_append, ih, List.length_cons, Nat.mul_succ, Nat.add_comm]
      rfl

/-- The events of the tokens of a mapping. -/
theorem exists_ofTokens?_mapping
    (htokens : tokens.map Token.kind = .blockMappingStart ::
      (entries.flatMap Yaml.entryKinds ++ [.blockEnd, .streamEnd])) :
    ∃ events, ofTokens? tokens = some events ∧
      events.map Event.kind = .mappingStart .empty ::
        (entries.flatMap entryKinds ++ [.mappingEnd]) := by
  have hlength : (tokens.map Token.kind).length = 4 * entries.length + 3 := by
    rw [htokens, List.length_cons, List.length_append, length_flatMap_entryKinds]
    rfl
  obtain ⟨first, rest, rfl, hfirst, hrest⟩ := List.map_eq_cons_iff.mp htokens
  rw [List.length_map] at hlength
  have hbound : 2 * entries.length < 4 * (first :: rest).length + 3 := by omega
  obtain ⟨events, rest', hevents, hkinds, hafter⟩ :=
    exists_eventsFrom?_entries defaultHandles hrest hbound
  obtain ⟨last, _, rfl, hlast, hnil⟩ := List.map_eq_cons_iff.mp hafter
  obtain rfl := List.map_eq_nil_iff.mp hnil
  have hroot : root? defaultHandles (first :: rest) =
      some (⟨.mappingStart .empty, first.start⟩ :: events, [last]) := by
    rw [root?, eventsFrom?_succ (step?_blockMappingStart hfirst), hevents]
    rfl
  have hend : isAtEnd [last] = true := by
    obtain ⟨_, _, _⟩ := last
    subst hlast
    rfl
  refine ⟨⟨.mappingStart .empty, first.start⟩ :: events, ?_, by simp [hkinds]⟩
  simp [ofTokens?, hfirst, endsDocument, hroot, hend]

end Event

namespace Document

/-- The nodes of an entry, seen from outside. -/
def entryNodes (entry : List Char × List Char) : NodeKind × NodeKind :=
  (.scalar none .plain entry.1, .scalar none .plain entry.2)

variable {events : List Event} {entries : List (List Char × List Char)}

theorem exists_mentions?_entries
    (hevents : events.map Event.kind = entries.flatMap Event.entryKinds ++ [.mappingEnd]) :
    ∃ nodes : List (Node × Node), mentions? 1 .empty events =
        some (nodes.flatMap fun entry => [(1, .node entry.1), (1, .node entry.2)], .empty) ∧
      nodes.map (Prod.map Node.kind Node.kind) = entries.map entryNodes := by
  induction entries generalizing events with
  | nil =>
      obtain ⟨last, _, rfl, hlast, hnil⟩ := List.map_eq_cons_iff.mp hevents
      obtain rfl := List.map_eq_nil_iff.mp hnil
      refine ⟨[], ?_, rfl⟩
      simp [mentions?, hlast]
  | cons entry entries ih =>
      simp only [List.flatMap_cons, Event.entryKinds, List.cons_append, List.nil_append,
        List.map_eq_cons_iff] at hevents
      obtain ⟨key, _, rfl, hkey, value, rest, rfl, hvalue, hrest⟩ := hevents
      obtain ⟨nodes, hmentions, hkinds⟩ := ih hrest
      refine ⟨(⟨.scalar none .plain entry.1, key.position, false⟩,
        ⟨.scalar none .plain entry.2, value.position, false⟩) :: nodes, ?_, ?_⟩
      · simp [mentions?, hkey, hvalue, Properties.empty, Anchors.defineAny, hmentions]
      · simp [hkinds, entryNodes]

theorem pairs_flatMap (nodes : List (Node × Node)) :
    pairs (nodes.flatMap fun entry => [entry.1, entry.2]) = nodes := by
  induction nodes with
  | nil => rfl
  | cons entry nodes ih =>
      simp only [List.flatMap_cons, List.cons_append, List.nil_append, pairs, ih]

theorem mapM_node?_flatMap (anchors : Anchors) (nodes : List (Node × Node)) :
    (nodes.flatMap fun entry => [Mention.node entry.1, Mention.node entry.2]).mapM (node? anchors) =
      some (nodes.flatMap fun entry => [entry.1, entry.2]) := by
  induction nodes with
  | nil => rfl
  | cons entry nodes ih =>
      simp [List.flatMap_cons, node?, ih]

/-- A text of lines is a mapping of its entries. -/
theorem exists_ofText?_lines {lines : List Line} (hsound : ∀ line ∈ lines, line.Sound)
    (hne : lines.filterMap Line.entry? ≠ []) :
    ∃ position nodes, ofText? (String.ofList (Line.text lines)) = some (.mapping position nodes) ∧
      nodes.map (Prod.map Node.kind Node.kind) =
        (lines.filterMap Line.entry?).map entryNodes := by
  obtain ⟨tokens, htokens, htokenKinds⟩ := Token.exists_ofText?_lines hsound hne
  obtain ⟨events, hevents, heventKinds⟩ := Event.exists_ofTokens?_mapping htokenKinds
  obtain ⟨first, rest, rfl, hfirst, hrest⟩ := List.map_eq_cons_iff.mp heventKinds
  obtain ⟨nodes, hmentions, hkinds⟩ := exists_mentions?_entries hrest
  refine ⟨first.position, nodes, ?_, hkinds⟩
  have htop : ((nodes.flatMap fun entry => [(1, Mention.node entry.1), (1, .node entry.2)]).filter
      (·.1 = 1)).map Prod.snd =
        nodes.flatMap fun entry => [Mention.node entry.1, Mention.node entry.2] := by
    simp [List.filter_flatMap, List.map_flatMap]
  have hmention : mentions? 0 .empty (first :: rest) =
      some ((0, .node ⟨.mapping, first.position, false⟩) ::
        nodes.flatMap fun entry => [(1, .node entry.1), (1, .node entry.2)], .empty) := by
    simp [mentions?, hfirst, Properties.empty, Anchors.defineAny, hmentions]
  simp only [ofText?, htokens, hevents, ofEvents?, hmention, bind, Option.bind, List.head?_cons,
    node?, pure]
  rw [List.filter_cons_of_neg (by simp), htop, mapM_node?_flatMap]
  simp only [pairs_flatMap]

end Document

end TapeMachine.Yaml
