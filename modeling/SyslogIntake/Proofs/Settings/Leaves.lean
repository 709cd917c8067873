import Mathlib.Data.List.Nodup
import SyslogIntake.Proofs.Settings.Placing
import SyslogIntake.Settings.Overrides

/-!
# Options one by one

Settings are fourteen options, four of them in the block of TLS settings.  Each option is at a
path of names, is read from the value at its path alone, and has a default.  What is read from
the members of an object is, option by option, what stands at the paths of the options.

**Results.**

* `readMembers_part` : a part of what is read comes from the member of its option alone;
* `read_leaf` : an option is read from the value at its path, or has its default;
* `tls_isSome_iff` : there is a block of TLS settings exactly if one of its options is there.
-/

namespace SyslogIntake

/-- The options that hold a single value. -/
inductive Leaf
  | listen
  | transport
  | framing
  | keyFile
  | certFile
  | caFile
  | peerVerify
  | maxMessageSize
  | initialDataTimeout
  | handshakeTimeout
  | maxConnections
  | shutdownTimeout
  | output
  | logLevel
  deriving DecidableEq, Repr

namespace Leaf

/-- Whether an option belongs to the block of TLS settings. -/
def isTls : Leaf → Bool
  | .keyFile | .certFile | .caFile | .peerVerify => true
  | _ => false

def name : Leaf → String
  | .listen => "listen"
  | .transport => "transport"
  | .framing => "framing"
  | .keyFile => "key_file"
  | .certFile => "cert_file"
  | .caFile => "ca_file"
  | .peerVerify => "peer_verify"
  | .maxMessageSize => "max_message_size"
  | .initialDataTimeout => "initial_data_timeout"
  | .handshakeTimeout => "handshake_timeout"
  | .maxConnections => "max_connections"
  | .shutdownTimeout => "shutdown_timeout"
  | .output => "output"
  | .logLevel => "log_level"

/-- The path of names to an option. -/
def path (o : Leaf) : List String :=
  if o.isTls then ["tls", o.name] else [o.name]

/-- The path to an option as one name with points. -/
def key (o : Leaf) : String :=
  ".".intercalate o.path

/-- What an option holds; without a block of TLS settings there is no key and no certificate. -/
abbrev Value : Leaf → Type
  | .listen => Endpoint
  | .transport => Transport
  | .framing => FramingPolicy
  | .keyFile | .certFile | .caFile => Option String
  | .peerVerify => PeerVerify
  | .maxMessageSize | .initialDataTimeout | .handshakeTimeout | .maxConnections |
    .shutdownTimeout => UInt64
  | .output | .logLevel => String

/-- The value of an option in settings; a demand that nobody chose is the default. -/
def get : (o : Leaf) → Settings → o.Value
  | .listen, s => s.listen
  | .transport, s => s.transport
  | .framing, s => s.framing
  | .keyFile, s => s.tls.map (·.keyFile)
  | .certFile, s => s.tls.map (·.certFile)
  | .caFile, s => s.tls.bind (·.caFile)
  | .peerVerify, s => (s.tls.map (·.peerVerify)).getD TlsSettings.defaultPeerVerify
  | .maxMessageSize, s => s.maxMessageSize
  | .initialDataTimeout, s => s.initialDataTimeout
  | .handshakeTimeout, s => s.handshakeTimeout
  | .maxConnections, s => s.maxConnections
  | .shutdownTimeout, s => s.shutdownTimeout
  | .output, s => s.output
  | .logLevel, s => s.logLevel

/-- The value of an option that nobody sets. -/
def default (o : Leaf) : o.Value :=
  o.get .default

/-- The value of an option as it is read from a value. -/
def read (reading : Reading) : (o : Leaf) → Json → Except Misfit o.Value
  | .listen, v => reading.endpoint v
  | .transport, v => reading.meaning Transport.read .word v
  | .framing, v => reading.meaning FramingPolicy.read .word v
  | .keyFile, v | .certFile, v => (reading.path v).map some
  | .caFile, v => reading.path? v
  | .peerVerify, v => reading.meaning PeerVerify.read .word v
  | .maxMessageSize, v | .maxConnections, v => reading.count Reading.sizeKind v
  | .initialDataTimeout, v | .handshakeTimeout, v | .shutdownTimeout, v =>
      reading.count Reading.secondsKind v
  | .output, v => reading.path v
  | .logLevel, v => reading.text Reading.textKind v

/-- Settings with another value of an option outside of the block of TLS settings. -/
def put : (o : Leaf) → o.Value → Settings → Settings
  | .listen, x, s => { s with listen := x }
  | .transport, x, s => { s with transport := x }
  | .framing, x, s => { s with framing := x }
  | .maxMessageSize, x, s => { s with maxMessageSize := x }
  | .initialDataTimeout, x, s => { s with initialDataTimeout := x }
  | .handshakeTimeout, x, s => { s with handshakeTimeout := x }
  | .maxConnections, x, s => { s with maxConnections := x }
  | .shutdownTimeout, x, s => { s with shutdownTimeout := x }
  | .output, x, s => { s with output := x }
  | .logLevel, x, s => { s with logLevel := x }
  | .keyFile, _, s | .certFile, _, s | .caFile, _, s | .peerVerify, _, s => s

/-- An option of the block of TLS settings while it is being read. -/
def draft : (o : Leaf) → TlsDraft → o.Value
  | .keyFile, d => d.keyFile
  | .certFile, d => d.certFile
  | .caFile, d => d.caFile
  | .peerVerify, d => d.peerVerify
  | o, _ => o.default

/-- A draft with another value of an option. -/
def putDraft : (o : Leaf) → o.Value → TlsDraft → TlsDraft
  | .keyFile, x, d => { d with keyFile := x }
  | .certFile, x, d => { d with certFile := x }
  | .caFile, x, d => { d with caFile := x }
  | .peerVerify, x, d => { d with peerVerify := x }
  | _, _, d => d

def all : List Leaf :=
  [.listen, .transport, .framing, .keyFile, .certFile, .caFile, .peerVerify, .maxMessageSize,
    .initialDataTimeout, .handshakeTimeout, .maxConnections, .shutdownTimeout, .output, .logLevel]

theorem mem_all
    (o : Leaf) :
    o ∈ all := by
  cases o <;> decide

theorem name_inj
    {o other : Leaf}
    (h : o.name = other.name) :
    o = other := by
  have hnames : (all.map name).Nodup := by decide +kernel
  exact List.inj_on_of_nodup_map hnames (mem_all o) (mem_all other) h

theorem name_ne_tls
    (o : Leaf) :
    o.name ≠ "tls" := by
  have hnames : ∀ o ∈ all, o.name ≠ "tls" := by decide +kernel
  exact hnames o (mem_all o)

theorem get_put
    {o : Leaf}
    (ho : o.isTls = false)
    (x : o.Value) (s : Settings) :
    o.get (o.put x s) = x := by
  cases o <;> first | rfl | cases ho

theorem get_put_of_ne
    {o other : Leaf}
    (hne : o ≠ other)
    (x : other.Value) (s : Settings) :
    o.get (other.put x s) = o.get s := by
  cases other <;> cases o <;> first | rfl | exact absurd rfl hne

theorem tls_put
    (o : Leaf) (x : o.Value) (s : Settings) :
    (o.put x s).tls = s.tls := by
  cases o <;> rfl

theorem draft_put
    {o : Leaf}
    (ho : o.isTls = true)
    (x : o.Value) (d : TlsDraft) :
    o.draft (o.putDraft x d) = x := by
  cases o <;> first | rfl | cases ho

theorem draft_put_of_ne
    {o other : Leaf}
    (hne : o ≠ other)
    (x : other.Value) (d : TlsDraft) :
    o.draft (other.putDraft x d) = o.draft d := by
  cases other <;> cases o <;> first | rfl | exact absurd rfl hne

/-- The field of an option outside of the block of TLS settings. -/
def field (o : Leaf) : Field Settings :=
  ⟨o.name, fun reading v held => (o.read reading v).map fun found => o.put found held⟩

/-- The field of an option of the block. -/
def draftField (o : Leaf) : Field TlsDraft :=
  ⟨o.name, fun reading v held => (o.read reading v).map fun found => o.putDraft found held⟩

end Leaf

def blockField : Field Settings :=
  ⟨"tls", fun reading v held =>
    (TlsSettings.read? reading v).map fun found => { held with tls := found }⟩

/-- Settings have a field for each option outside of the block, and one for the block. -/
theorem mem_fields
    {field : Field Settings} :
    field ∈ Settings.fields ↔
      field = blockField ∨ ∃ o : Leaf, o.isTls = false ∧ field = o.field := by
  have heq : Settings.fields =
      [Leaf.listen.field, Leaf.transport.field, Leaf.framing.field, blockField,
        Leaf.maxMessageSize.field, Leaf.initialDataTimeout.field, Leaf.handshakeTimeout.field,
        Leaf.maxConnections.field, Leaf.shutdownTimeout.field, Leaf.output.field,
        Leaf.logLevel.field] := rfl
  rw [heq]
  simp only [List.mem_cons, List.not_mem_nil, or_false]
  constructor
  · rintro (h | h | h | h | h | h | h | h | h | h | h)
    all_goals first
      | exact Or.inl h
      | exact Or.inr ⟨_, rfl, h⟩
  · rintro (h | ⟨o, ho, h⟩)
    · simp [h]
    · cases o <;> first | exact absurd ho (by decide) | simp [h]

theorem mem_tlsFields
    {field : Field TlsDraft} :
    field ∈ TlsSettings.fields ↔ ∃ o : Leaf, o.isTls = true ∧ field = o.draftField := by
  have hmap : ∀ {path : Except Misfit String} {f : Option String → TlsDraft},
      path.map (fun found => f (some found)) = (path.map some).map f := by
    intro path f
    cases path <;> rfl
  have heq : TlsSettings.fields =
      [Leaf.keyFile.draftField, Leaf.certFile.draftField, Leaf.caFile.draftField,
        Leaf.peerVerify.draftField] := by
    simp only [TlsSettings.fields, Leaf.draftField, Leaf.read, Leaf.putDraft, ← hmap]
    rfl
  rw [heq]
  simp only [List.mem_cons, List.not_mem_nil, or_false]
  constructor
  · rintro (h | h | h | h)
    all_goals exact ⟨_, rfl, h⟩
  · rintro ⟨o, ho, h⟩
    cases o <;> first | exact absurd ho (by decide) | simp [h]

theorem exists_of_map
    {ε α β : Type} {f : α → β} {tried : Except ε α} {b : β}
    (h : tried.map f = .ok b) :
    ∃ a, tried = .ok a ∧ f a = b := by
  cases tried with
  | error misfit =>
      cases h
  | ok a =>
      exact ⟨a, rfl, Except.ok.inj h⟩

theorem exists_of_isOk
    {ε α : Type} {tried : Except ε α}
    (h : tried.isOk = true) :
    ∃ a, tried = .ok a := by
  cases tried with
  | error misfit =>
      cases h
  | ok a =>
      exact ⟨a, rfl⟩

theorem ok_of_mapError
    {ε δ α : Type} {f : ε → δ} {tried : Except ε α} {a : α}
    (h : tried.mapError f = .ok a) :
    tried = .ok a := by
  cases tried with
  | error misfit =>
      cases h
  | ok b =>
      exact congrArg _ (Except.ok.inj h)

section Members

variable {σ β : Type} {fields : List (Field σ)} {reading : Reading}

/-- What a member of some name does to a part of what is being read: the member of the part's
option decides it, and every other option leaves it alone. -/
structure Decides (fields : List (Field σ)) (reading : Reading) (name : String) (part : σ → β)
    (accept : Json → β → Prop) : Prop where
  known : ∃ field ∈ fields, field.name = name
  own : ∀ field ∈ fields, field.name = name → ∀ v held next,
    field.set reading v held = .ok next → accept v (part next)
  other : ∀ field ∈ fields, field.name ≠ name → ∀ v held next,
    field.set reading v held = .ok next → part next = part held

variable {name : String} {part : σ → β} {accept : Json → β → Prop}

/-- One member after the other: the first one is passed over or taken. -/
theorem readMembers_cons
    {first : String} {v : Json} {rest : List (String × Json)} {held found : σ}
    (h : Field.readMembers fields reading ((first, v) :: rest) held = .ok found) :
    ((∀ field ∈ fields, field.name ≠ first) ∧
        Field.readMembers fields reading rest held = .ok found) ∨
      ∃ field ∈ fields, field.name = first ∧ ∃ next, field.set reading v held = .ok next ∧
        Field.readMembers fields reading rest next = .ok found := by
  rw [Field.readMembers] at h
  split at h
  · rename_i hnone
    refine Or.inl ⟨?_, h⟩
    intro field hfield
    simpa using List.find?_eq_none.1 hnone field hfield
  · rename_i field hsome
    split at h
    · cases h
    · rename_i next hnext
      exact Or.inr ⟨field, List.mem_of_find?_eq_some hsome,
        by simpa using List.find?_some hsome, next, ok_of_mapError hnext, h⟩

theorem readMembers_other
    (hdecides : Decides fields reading name part accept)
    {members : List (String × Json)} {held found : σ}
    (hnames : ∀ m ∈ members, m.1 ≠ name)
    (h : Field.readMembers fields reading members held = .ok found) :
    part found = part held := by
  induction members generalizing held with
  | nil =>
      rw [Field.readMembers] at h
      rw [Except.ok.inj h]
  | cons head rest ih =>
      obtain ⟨first, v⟩ := head
      have hrest := fun m hm => hnames m (List.mem_cons_of_mem _ hm)
      rcases readMembers_cons h with ⟨-, hmore⟩ | ⟨field, hfield, hfirst, next, hnext, hmore⟩
      · exact ih hrest hmore
      · have hne : field.name ≠ name := hfirst ▸ hnames _ List.mem_cons_self
        rw [ih hrest hmore, hdecides.other field hfield hne v held next hnext]

/-- A part of what is read comes from the member of its option, or stays where there is none. -/
theorem readMembers_part
    (hdecides : Decides fields reading name part accept)
    {members : List (String × Json)} {held found : σ}
    (hordered : Json.Ordered members)
    (h : Field.readMembers fields reading members held = .ok found) :
    (∀ v, Json.lookup name members = some v → accept v (part found)) ∧
      (Json.lookup name members = none → part found = part held) := by
  induction members generalizing held with
  | nil =>
      rw [Field.readMembers] at h
      rw [Except.ok.inj h]
      exact ⟨fun v hv => absurd hv (Option.some_ne_none v).symm, fun _ => rfl⟩
  | cons head rest ih =>
      obtain ⟨first, v⟩ := head
      obtain ⟨hbelow, hrest⟩ := Json.ordered_cons.1 hordered
      have hbehind : first = name → ∀ m ∈ rest, m.1 ≠ name := by
        rintro rfl m hm heq
        exact String.lt_irrefl _ (heq ▸ hbelow m hm)
      rw [Json.lookup]
      rcases readMembers_cons h with ⟨hpassed, hmore⟩ | ⟨field, hfield, hfirst, next, hnext, hmore⟩
      · have hne : name ≠ first := by
          rintro rfl
          obtain ⟨field, hfield, hname⟩ := hdecides.known
          exact hpassed field hfield hname
        rw [if_neg hne]
        exact ih hrest hmore
      · by_cases heq : name = first
        · have hpart := readMembers_other hdecides (hbehind heq.symm) hmore
          have hown := hdecides.own field hfield (hfirst.trans heq.symm) v held next hnext
          rw [if_pos heq, hpart]
          refine ⟨?_, fun habsent => absurd habsent (Option.some_ne_none v)⟩
          rintro w hw
          rw [← Option.some.inj hw]
          exact hown
        · have hne : field.name ≠ name := fun hname => heq (hname.symm.trans hfirst)
          rw [if_neg heq, ← hdecides.other field hfield hne v held next hnext]
          exact ih hrest hmore

end Members

section Blocks

variable {o : Leaf} {reading : Reading}

/-- Outside of the block of TLS settings every option is decided by its member. -/
theorem decides_leaf
    (ho : o.isTls = false) :
    Decides Settings.fields reading o.name o.get
      (fun v found => o.read reading v = .ok found) := by
  refine ⟨⟨o.field, mem_fields.2 (Or.inr ⟨o, ho, rfl⟩), rfl⟩, ?_, ?_⟩
  · intro field hfield hname v held next hset
    rcases mem_fields.1 hfield with rfl | ⟨other, -, rfl⟩
    · exact absurd hname.symm o.name_ne_tls
    · cases Leaf.name_inj hname
      obtain ⟨found, hread, rfl⟩ := exists_of_map hset
      rw [Leaf.get_put ho]
      exact hread
  · intro field hfield hname v held next hset
    rcases mem_fields.1 hfield with rfl | ⟨other, -, rfl⟩
    · obtain ⟨found, -, rfl⟩ := exists_of_map hset
      cases o <;> first | rfl | cases ho
    · obtain ⟨found, -, rfl⟩ := exists_of_map hset
      exact Leaf.get_put_of_ne (fun heq => hname (congrArg Leaf.name heq).symm) found held

/-- The block of TLS settings is decided by its member. -/
theorem decides_block :
    Decides Settings.fields reading "tls" Settings.tls
      (fun v found => TlsSettings.read? reading v = .ok found) := by
  refine ⟨⟨blockField, mem_fields.2 (Or.inl rfl), rfl⟩, ?_, ?_⟩
  · intro field hfield hname v held next hset
    rcases mem_fields.1 hfield with rfl | ⟨other, -, rfl⟩
    · obtain ⟨found, hread, rfl⟩ := exists_of_map hset
      exact hread
    · exact absurd hname other.name_ne_tls
  · intro field hfield hname v held next hset
    rcases mem_fields.1 hfield with rfl | ⟨other, -, rfl⟩
    · exact absurd rfl hname
    · obtain ⟨found, -, rfl⟩ := exists_of_map hset
      exact other.tls_put found held

/-- Inside of the block every option is decided by its member. -/
theorem decides_draft
    (ho : o.isTls = true) :
    Decides TlsSettings.fields reading o.name o.draft
      (fun v found => o.read reading v = .ok found) := by
  refine ⟨⟨o.draftField, mem_tlsFields.2 ⟨o, ho, rfl⟩, rfl⟩, ?_, ?_⟩
  · intro field hfield hname v held next hset
    obtain ⟨other, -, rfl⟩ := mem_tlsFields.1 hfield
    cases Leaf.name_inj hname
    obtain ⟨found, hread, rfl⟩ := exists_of_map hset
    rw [Leaf.draft_put ho]
    exact hread
  · intro field hfield hname v held next hset
    obtain ⟨other, -, rfl⟩ := mem_tlsFields.1 hfield
    obtain ⟨found, -, rfl⟩ := exists_of_map hset
    exact Leaf.draft_put_of_ne (fun heq => hname (congrArg Leaf.name heq).symm) found held

/-- Without a block its options have their defaults. -/
theorem get_of_no_block
    {s : Settings}
    (ho : o.isTls = true) (htls : s.tls = none) :
    o.get s = o.default := by
  cases o <;> first
    | exact absurd ho (by decide)
    | simp [Leaf.get, Leaf.default, htls, Settings.default]

/-- The options of a block are those of the draft that it was made of. -/
theorem get_of_draft
    {s : Settings} {tls : TlsSettings} {d : TlsDraft}
    (ho : o.isTls = true) (htls : s.tls = some tls)
    (hdraft : TlsSettings.ofDraft d = .ok tls) :
    o.get s = o.draft d := by
  obtain ⟨keyFile, certFile, caFile, peerVerify⟩ := d
  cases keyFile with
  | none =>
      cases hdraft
  | some key =>
      cases certFile with
      | none =>
          cases hdraft
      | some cert =>
          cases hdraft
          cases o <;> first | exact absurd ho (by decide) | simp [Leaf.get, Leaf.draft, htls]

theorem read?_object
    {parts : List (String × Json)} {found : Option TlsSettings}
    (h : TlsSettings.read? reading (.object parts) = .ok found) :
    ∃ d tls, Field.readMembers TlsSettings.fields reading parts TlsSettings.emptyDraft = .ok d ∧
      TlsSettings.ofDraft d = .ok tls ∧ found = some tls := by
  obtain ⟨tls, hread, rfl⟩ := exists_of_map h
  rw [TlsSettings.read] at hread
  split at hread
  · cases hread
  · rename_i d hd
    exact ⟨d, tls, hd, ok_of_mapError hread, rfl⟩

variable {members : List (String × Json)} {s : Settings}

/-- The block of settings is what the member of the block is read as. -/
theorem read_block
    (htidy : (Json.object members).Tidy)
    (h : Settings.ofJson reading (.object members) = .ok s) :
    (∀ v, Json.lookup "tls" members = some v → TlsSettings.read? reading v = .ok s.tls) ∧
      (Json.lookup "tls" members = none → s.tls = none) :=
  readMembers_part decides_block htidy.1 h

theorem at?_single
    (name : String) :
    (Json.object members).at? [name] = Json.lookup name members := by
  rw [Json.at?, Json.get?]
  cases Json.lookup name members <;> rfl

/-- The path of an option outside of the block leads to the member of the option. -/
theorem at?_outside
    (ho : o.isTls = false) :
    (Json.object members).at? o.path = Json.lookup o.name members := by
  rw [Leaf.path, ho, if_neg (by decide), at?_single]

/-- The path of an option of the block leads through the member of the block. -/
theorem at?_inside
    (ho : o.isTls = true) :
    (Json.object members).at? o.path =
      (Json.lookup "tls" members).bind fun v => v.get? o.name := by
  rw [Leaf.path, ho, if_pos rfl, Json.at?, Json.get?]
  congr 1
  funext v
  rw [Json.at?]
  cases v.get? o.name <;> rfl

theorem read_leaf
    (htidy : (Json.object members).Tidy)
    (hblock : ∀ v, Json.lookup "tls" members = some v → ∃ parts, v = .object parts)
    (h : Settings.ofJson reading (.object members) = .ok s)
    (o : Leaf) :
    (∀ v, (Json.object members).at? o.path = some v → o.read reading v = .ok (o.get s)) ∧
      ((Json.object members).at? o.path = none → o.get s = o.default) := by
  cases ho : o.isTls with
  | false =>
      rw [at?_outside ho]
      exact readMembers_part (decides_leaf ho) htidy.1 h
  | true =>
      obtain ⟨hread, hnone⟩ := read_block htidy h
      rw [at?_inside ho]
      cases hmember : Json.lookup "tls" members with
      | none =>
          exact ⟨fun v hv => absurd hv (Option.some_ne_none v).symm,
            fun _ => get_of_no_block ho (hnone hmember)⟩
      | some v =>
          obtain ⟨parts, rfl⟩ := hblock v hmember
          obtain ⟨d, tls, hd, htls, hfound⟩ := read?_object (hread _ hmember)
          have hparts : (Json.object parts).Tidy := htidy.get? hmember
          have hdraft := readMembers_part (decides_draft ho) hparts.1 hd
          rw [← get_of_draft ho hfound htls] at hdraft
          refine ⟨hdraft.1, fun habsent => (hdraft.2 habsent).trans ?_⟩
          cases o <;> rfl

/-- There is a block of TLS settings exactly if one of its options is there to read. -/
theorem tls_isSome_iff
    (htidy : (Json.object members).Tidy)
    (hblock : ∀ v, Json.lookup "tls" members = some v → ∃ parts, v = .object parts)
    (h : Settings.ofJson reading (.object members) = .ok s) :
    s.tls.isSome = true ↔
      ∃ o : Leaf, o.isTls = true ∧ ((Json.object members).at? o.path).isSome = true := by
  obtain ⟨hread, hnone⟩ := read_block htidy h
  constructor
  · intro hsome
    refine ⟨.keyFile, rfl, ?_⟩
    by_contra habsent
    have hkey := (read_leaf htidy hblock h .keyFile).2 (Option.not_isSome_iff_eq_none.1 habsent)
    obtain ⟨tls, htls⟩ := Option.isSome_iff_exists.1 hsome
    simp [Leaf.get, Leaf.default, htls, Settings.default] at hkey
  · rintro ⟨o, ho, hfound⟩
    cases hmember : Json.lookup "tls" members with
    | none =>
        rw [at?_inside ho, hmember] at hfound
        cases hfound
    | some v =>
        obtain ⟨parts, rfl⟩ := hblock v hmember
        obtain ⟨d, tls, -, -, htls⟩ := read?_object (hread _ hmember)
        rw [htls]
        rfl

end Blocks

end SyslogIntake
