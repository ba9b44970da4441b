import Dialogue.Command.Run
import Dialogue.Proofs.Flow.Opened
import Dialogue.Proofs.Json.Read
import Dialogue.Proofs.Yaml.Read

/-!
# Saved flows loaded again

A loaded flow is dumped as JSON, and the dumped text loads as the same flow, as long as the values
that it takes over from its document have a form in JSON. YAML gives values that have none, dates,
bytes and sets above all, and others that JSON can only spell as something else: pairs become lists,
and keys become texts. A flow that was loaded of JSON is always dumped and loaded again.
-/

namespace Dialogue

open Yaml (Value)
open Command (dump)

/-! ## Conditions -/

/-- What is relied on of a reader: maps have no key twice, and a document counts as itself. -/
structure Reader.Lawful (r : Reader) : Prop where
  distinct_yaml {text : String} {v : Value} : r.yaml text = .ok v → v.Distinct
  distinct_typed {v : Value} : v.Distinct → (r.typed v).Distinct
  typed_ofDocument {d : Document} : d.Distinct → r.typed (.ofDocument d) = d

/-- The reader of the running program is lawful. -/
theorem Reader.lawful_standard : Reader.standard.Lawful :=
  ⟨Yaml.distinct_read, fun {v} _ => v.distinct_typed, Value.typed_ofDocument⟩

theorem admits_distinct : Admits (fun _ => True) Scalar.Apart where
  text _ := trivial
  bool _ := trivial
  float _ := trivial
  int _ _ := trivial
  names _ := Scalar.apart_map_text.2
  apart _ := id

theorem admits_exact : Admits (fun s => s.Writable ∧ s.Whole)
    fun ks => (∀ k ∈ ks, k.IsText ∧ k.Whole) ∧ Scalar.Apart ks where
  text _ := ⟨trivial, trivial⟩
  bool _ := ⟨trivial, trivial⟩
  float _ := ⟨trivial, trivial⟩
  int _ writable := ⟨writable, trivial⟩
  names ks nodup := by
    refine ⟨fun k member => ?_, Scalar.apart_map_text.2 nodup⟩
    obtain ⟨s, -, rfl⟩ := List.mem_map.1 member
    exact ⟨rfl, trivial⟩
  apart _ := And.right

variable {r : Reader} {text out : String} {d : Document} {v : Value}

/-- Whatever is read has distinct keys. -/
theorem Exchange.distinct_readValue (lawful : r.Lawful) (h : readValue r text = .ok v) :
    v.Distinct := by
  unfold readValue at h
  split at h
  case h_1 d read =>
    obtain rfl := Except.ok.inj h
    exact Value.distinct_ofDocument.2 (Json.exact_read read).distinct
  case h_2 =>
    unfold readYaml at h
    split at h
    case h_1 v read =>
      obtain rfl := Except.ok.inj h
      exact lawful.distinct_yaml read
    all_goals cases h
  case h_3 => cases h

/-- A text that is JSON has the value of its document. -/
theorem Exchange.readValue_of_json (json : Json.read text = .ok d) :
    readValue r text = .ok (.ofDocument d) := by
  rw [readValue, json]

namespace Flow

/-! ## Loading -/

theorem loaded_eq_ok {l : Loaded} : loaded r text = .ok l ↔
    ∃ f, Exchange.readValue r text = .ok l.source ∧ Flow.check (r.typed l.source) = .ok f ∧
      f.normalize = l.flow := by
  have mapped {s : Value} {f : Flow} :
      Flow.ofDocument .use (r.typed s) = .ok f ↔ Flow.check (r.typed s) = .ok f := by
    rw [ofDocument]
    cases Flow.check (r.typed s) <;> simp [Except.mapError]
  simp only [loaded, bind_eq_ok, mapped, pure_eq_ok, Except.ok.injEq]
  constructor
  · rintro ⟨s, read, f, checked, rfl⟩
    exact ⟨f, read, checked, rfl⟩
  · rintro ⟨f, read, checked, same⟩
    exact ⟨_, read, f, checked, by rw [same]⟩

/-- Loading opens the normalized flow to what was read. -/
theorem load_eq_ok : load r text = .ok v ↔
    ∃ s f, Exchange.readValue r text = .ok s ∧ Flow.check (r.typed s) = .ok f ∧
      opened s f.normalize.document = v := by
  simp only [load, bind_eq_ok, loaded_eq_ok, pure_eq_ok, Except.ok.injEq]
  constructor
  · rintro ⟨⟨_, s⟩, ⟨f, read, checked, rfl⟩, made⟩
    exact ⟨s, f, read, checked, made⟩
  · rintro ⟨s, f, read, checked, made⟩
    exact ⟨⟨_, s⟩, ⟨f, read, checked, rfl⟩, made⟩

/-- What is loaded has distinct keys all through. -/
theorem distinct_of_load (lawful : r.Lawful) (loaded : load r text = .ok v) : v.Distinct := by
  obtain ⟨s, f, read, checked, rfl⟩ := load_eq_ok.1 loaded
  have source := Exchange.distinct_readValue lawful read
  exact distinct_opened source
    (holds_normalize admits_distinct (lawful.distinct_typed source) checked)

/-- What is loaded of JSON is the document of the normalized flow. -/
theorem load_of_json (lawful : r.Lawful) (json : Json.read text = .ok d) :
    load r text = .ok v ↔
      ∃ f, Flow.check d = .ok f ∧ .ofDocument f.normalize.document = v := by
  have distinct := (Json.exact_read json).distinct
  rw [load_eq_ok, Exchange.readValue_of_json json]
  constructor
  · rintro ⟨s, f, read, checked, rfl⟩
    obtain rfl := Except.ok.inj read
    rw [lawful.typed_ofDocument distinct] at checked
    exact ⟨f, checked, (opened_ofDocument distinct checked).symm⟩
  · rintro ⟨f, checked, rfl⟩
    exact ⟨_, f, rfl, by rwa [lawful.typed_ofDocument distinct], opened_ofDocument distinct checked⟩

/-- What is loaded of JSON is written and read back as it is. -/
theorem exact_of_load (lawful : r.Lawful) (json : Json.read text = .ok d)
    (loaded : load r text = .ok v) : ∃ e, v = .ofDocument e ∧ e.Exact := by
  obtain ⟨f, checked, rfl⟩ := (load_of_json lawful json).1 loaded
  exact ⟨_, rfl, holds_normalize admits_exact (Json.exact_read json) checked⟩

/-! ## Saving -/

/-- A value that is a document is saved as its lines. -/
theorem dump_eq_ok (form : v.document? = some d) : dump v = .ok out ↔
    ∃ cs, Json.chars Json.lined 0 d = .ok cs ∧ String.ofList cs ++ "\n" = out := by
  have text : dump v = Command.flowFileText d := by
    rw [dump, Exchange.form, form]
    rfl
  rw [text, Command.flowFileText, Json.write]
  cases Json.chars Json.lined 0 d <;> simp

/-- Dumping fails for nothing but values and keys that have no form in JSON. -/
theorem exists_dump : (∃ out, dump v = .ok out) ↔
    ∃ d, v.document? = some d ∧ d.Every Scalar.Writable := by
  cases form : v.document? with
  | none => simp [dump, Exchange.form, form]
  | some d => simp [dump_eq_ok form, ← Json.writable_chars (l := Json.lined) 0]

/-- The text of a flow is JSON. -/
theorem read_dump (form : v.document? = some d) (whole : d.Every Scalar.Whole)
    (dumped : dump v = .ok out) : Json.read out = .ok d.respelled := by
  obtain ⟨cs, written, rfl⟩ := (dump_eq_ok form).1 dumped
  have feed : ∀ c ∈ ['\n'], Json.isSpace c := by simp [Json.isSpace]
  have read := Json.readChars_append Json.spaced_lined whole written feed
  simpa [Json.read] using read

/-- The dumped text loads as the same flow if and only if this is a document and JSON can have all
the keys. -/
theorem load_dump_iff (lawful : r.Lawful) (loaded : load r text = .ok v)
    (form : v.document? = some d) (whole : d.Every Scalar.Whole) (dumped : dump v = .ok out) :
    load r out = .ok v ↔ v = .ofDocument d ∧ d.TextKeyed := by
  have json := read_dump form whole dumped
  constructor
  · intro again
    obtain ⟨e, rfl, exact⟩ := exact_of_load lawful json again
    obtain rfl : e = d := by simpa using form
    exact ⟨rfl, exact.textKeyed⟩
  · rintro ⟨rfl, texts⟩
    have distinct := Value.distinct_ofDocument.1 (distinct_of_load lawful loaded)
    rw [Document.respelled_eq texts distinct] at json
    obtain ⟨s, f, -, checked, opens⟩ := load_eq_ok.1 loaded
    obtain ⟨g, again, normal, rfl⟩ := exists_of_opened_normalize checked opens
    exact (load_of_json lawful json).2 ⟨g, again, by rw [normal]⟩

/-- A flow loaded from JSON can be saved, and is then loaded again. -/
theorem load_dump_of_json (lawful : r.Lawful) (json : Json.read text = .ok d)
    (loaded : load r text = .ok v) : ∃ out, dump v = .ok out ∧ load r out = .ok v := by
  obtain ⟨e, rfl, exact⟩ := exact_of_load lawful json loaded
  have form := Value.document?_ofDocument e
  obtain ⟨out, dumped⟩ := exists_dump.2 ⟨e, form, exact.writable⟩
  exact ⟨out, dumped, (load_dump_iff lawful loaded form exact.whole dumped).2
    ⟨rfl, exact.textKeyed⟩⟩

/-- What becomes of a loaded flow that is saved and loaded again. -/
structure Returns (r : Reader) (text : String) (v : Value) : Prop where
  /-- It is saved unless it holds bytes, a set, or a scalar that JSON has no form for. -/
  saved : (∃ out, dump v = .ok out) ↔ ∃ d, v.document? = some d ∧ d.Every Scalar.Writable
  read (d : Document) (form : v.document? = some d) (whole : d.Every Scalar.Whole) (out : String)
    (dumped : dump v = .ok out) : Json.read out = .ok d.respelled
  /-- It comes back as it was unless it holds pairs, or keys that are no texts. -/
  reloads (d : Document) (form : v.document? = some d) (whole : d.Every Scalar.Whole)
    (out : String) (dumped : dump v = .ok out) :
    load r out = .ok v ↔ v = .ofDocument d ∧ d.TextKeyed
  /-- So it is saved and comes back when it was loaded of JSON. -/
  ofJson (d : Document) (json : Json.read text = .ok d) :
    ∃ out, dump v = .ok out ∧ load r out = .ok v

def plainText : String :=
  "\x7b\"meta\": \x7b\"name\": \"A\"\x7d, \"nodes\": [\x7b\"id\": \"a\", \"position\": " ++
    "\x7b\"x\": 0, \"y\": 0\x7d\x7d]\x7d"

/-- A flow written by hand, with a date among its values. -/
def datedText : String :=
  "meta:\n  name: A\ncontext:\n  since: 2024-01-01\n" ++
    "nodes:\n- id: a\n  position:\n    x: 0\n    y: 0\n"

end Flow
end Dialogue
