import Dialogue.Proofs.Document.Outcome
import Dialogue.Proofs.Yaml.Value
import Dialogue.Yaml.Reader

/-!
# What YAML is read as

Entries are inserted one after the other, so that the keys of every map that is read stand apart,
whichever maps have been merged into it.
-/

namespace Dialogue.Yaml

namespace Node

/-- With this fuel a node, the items of a list, entries inserted into distinct ones, and pairs, are
read as values whose keys stand apart. -/
structure ReadsDistinct (fuel : Nat) : Prop where
  onNode : ∀ {n v}, value fuel n = .ok v → v.Distinct
  onItems : ∀ {ns vs}, values fuel ns = .ok vs → ∀ v ∈ vs, v.Distinct
  onEntries : ∀ {front es : Value.Fields} {entries}, (Value.map front).Distinct →
    insertAll fuel front entries = .ok es → (Value.map es).Distinct
  onPairs : ∀ {ns vs}, pairs fuel ns = .ok vs → ∀ v ∈ vs, v.Distinct

namespace ReadsDistinct

variable {fuel : Nat} {ns : List Node} {vs : List Value}

/-- One step further down a node keeps keys apart. -/
theorem value_succ (reads : ReadsDistinct fuel) {n : Node} {v : Value}
    (read : value (fuel + 1) n = .ok v) : v.Distinct := by
  unfold value at read
  split at read
  case h_1 =>
    obtain ⟨a, -, same⟩ := bind_eq_ok.1 read
    obtain rfl := Except.ok.inj same
    exact Value.distinct_atom a
  case h_2 =>
    obtain ⟨vs, items, same⟩ := bind_eq_ok.1 read
    obtain rfl := Except.ok.inj same
    exact Value.distinct_list.2 (reads.onItems items)
  case h_3 =>
    obtain ⟨vs, items, same⟩ := bind_eq_ok.1 read
    obtain rfl := Except.ok.inj same
    exact Value.distinct_list.2 (reads.onPairs items)
  case h_4 => cases read
  case h_5 =>
    obtain ⟨flat, -, read⟩ := bind_eq_ok.1 read
    obtain ⟨es, entries, same⟩ := bind_eq_ok.1 read
    obtain rfl := Except.ok.inj same
    exact reads.onEntries Value.distinct_empty entries
  case h_6 =>
    obtain ⟨flat, -, read⟩ := bind_eq_ok.1 read
    obtain ⟨es, -, same⟩ := bind_eq_ok.1 read
    obtain rfl := Except.ok.inj same
    exact Value.distinct_set _
  case h_7 =>
    split at read
    case h_1 =>
      obtain ⟨a, -, same⟩ := bind_eq_ok.1 read
      obtain rfl := Except.ok.inj same
      exact Value.distinct_atom a
    case h_2 => cases read

theorem values_succ (reads : ReadsDistinct fuel)
    (read : values (fuel + 1) ns = .ok vs) : ∀ v ∈ vs, v.Distinct := by
  cases ns with
  | nil =>
    cases read
    simp
  | cons n ns =>
    obtain ⟨v, first, read⟩ := bind_eq_ok.1 read
    obtain ⟨vs, others, same⟩ := bind_eq_ok.1 read
    obtain rfl := Except.ok.inj same
    exact List.forall_mem_cons.2 ⟨reads.onNode first, reads.onItems others⟩

/-- Merging keeps keys apart. -/
theorem insertAll_succ (reads : ReadsDistinct fuel) {front es : Value.Fields}
    {entries : List (Node × Node)} (distinct : (Value.map front).Distinct)
    (read : insertAll (fuel + 1) front entries = .ok es) : (Value.map es).Distinct := by
  cases entries with
  | nil =>
    cases read
    exact distinct
  | cons e entries =>
    obtain ⟨k, v⟩ := e
    obtain ⟨key, -, read⟩ := bind_eq_ok.1 read
    split at read
    · obtain ⟨x, valued, read⟩ := bind_eq_ok.1 read
      exact reads.onEntries (Value.distinct_insert distinct (reads.onNode valued)) read
    · cases read

theorem pairs_succ (reads : ReadsDistinct fuel) (read : pairs (fuel + 1) ns = .ok vs) :
    ∀ v ∈ vs, v.Distinct := by
  cases ns with
  | nil =>
    cases read
    simp
  | cons n ns =>
    unfold pairs at read
    split at read
    case h_1 k v =>
      obtain ⟨key, keyed, read⟩ := bind_eq_ok.1 read
      obtain ⟨x, valued, read⟩ := bind_eq_ok.1 read
      obtain ⟨vs, others, same⟩ := bind_eq_ok.1 read
      obtain rfl := Except.ok.inj same
      have pair := Value.distinct_pair.2 ⟨reads.onNode keyed, reads.onNode valued⟩
      exact List.forall_mem_cons.2 ⟨pair, reads.onPairs others⟩
    case h_2 => cases read

end ReadsDistinct

theorem readsDistinct : (fuel : Nat) → ReadsDistinct fuel
  | 0 => ⟨nofun, nofun, nofun, nofun⟩
  | fuel + 1 =>
    have reads := readsDistinct fuel
    ⟨reads.value_succ, reads.values_succ, reads.insertAll_succ, reads.pairs_succ⟩

end Node

/-- No mapping that is read has a key twice. -/
theorem distinct_read {s : String} {v : Value} (h : read s = .ok v) : v.Distinct := by
  obtain ⟨tokens, -, h⟩ := bind_eq_ok.1 h
  obtain ⟨tree, -, h⟩ := bind_eq_ok.1 h
  split at h
  · obtain rfl := Except.ok.inj h
    exact Value.distinct_atom _
  · exact (Node.readsDistinct _).onNode h

end Dialogue.Yaml
