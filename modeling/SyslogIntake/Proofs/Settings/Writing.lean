import SyslogIntake.Proofs.Address.Writing
import SyslogIntake.Proofs.Json.Writing
import SyslogIntake.Proofs.Settings.Placing
import SyslogIntake.Settings.Writer

/-!
# Settings are read as they are written

Settings come back from the value that they are written as, both where values are wanted as they
are and where they are converted.  Their text is read as that value, and a file with the text
is read as the settings, as long as it holds their counts as whole numbers.

**Results.**

* `ofJson_toJson` : settings come back from their value, if single values do;
* `read_text` : the text of settings is read as their value;
* `written_exact` : settings come back from their value, from their text, and from a file that
  holds it.
-/

namespace SyslogIntake

namespace Json

/-- A member of what results from setting members is one of them, or was there. -/
theorem mem_tidiedMembers
    {members held : List (String × Json)} {m : String × Json}
    (h : m ∈ tidiedMembers held members) :
    m ∈ held ∨ ∃ v, (m.1, v) ∈ members ∧ m.2 = v.tidied := by
  induction members generalizing held with
  | nil =>
      exact Or.inl h
  | cons head rest ih =>
      obtain ⟨name, v⟩ := head
      rw [tidiedMembers] at h
      rcases ih h with hheld | ⟨w, hw, hm⟩
      · rcases mem_insert hheld with rfl | hheld
        · exact Or.inr ⟨v, List.mem_cons_self, rfl⟩
        · exact Or.inl hheld
      · exact Or.inr ⟨w, List.mem_cons_of_mem _ hw, hm⟩

/-- Putting members in order is setting them one after the other, when their values are in
order. -/
theorem tidied_object
    (members : List (String × Json)) :
    tidied (.object members) = ofMembers (members.map fun m => (m.1, m.2.tidied)) := by
  have hall : ∀ held, tidiedMembers held members =
      (members.map fun m => (m.1, m.2.tidied)).foldl
        (fun held m => insert m.1 m.2 held) held := by
    induction members with
    | nil =>
        exact fun _ => rfl
    | cons head rest ih =>
        obtain ⟨name, v⟩ := head
        intro held
        rw [tidiedMembers, ih]
        rfl
  rw [tidied, hall, ofMembers]

/-- Names in lower case stay that when members are put in order. -/
theorem foldedMembers_tidied
    {members : List (String × Json)}
    (h : ∀ m ∈ members, Text.folded m.1 = m.1 ∧ m.2.tidied.Folded) :
    FoldedMembers (tidiedMembers [] members) := by
  rw [foldedMembers_iff]
  intro m hm
  rcases mem_tidiedMembers hm with hnone | ⟨v, hv, heq⟩
  · cases hnone
  · rw [heq]
    exact h (m.1, v) hv

end Json

namespace Settings

def counts (settings : Settings) : List UInt64 :=
  [settings.maxMessageSize, settings.initialDataTimeout, settings.handshakeTimeout,
    settings.maxConnections, settings.shutdownTimeout]

/-- Settings whose counts a file holds as whole numbers. -/
def FitsFile (settings : Settings) : Prop :=
  ∀ n ∈ settings.counts, (n.toNat : Int) ≤ Json.mostWhole

instance (settings : Settings) : Decidable settings.FitsFile :=
  List.decidableBAll (fun n : UInt64 => (n.toNat : Int) ≤ Json.mostWhole) settings.counts

theorem toJson_tls
    (tls : TlsSettings) :
    tls.toJson = .object (TlsSettings.authoritiesMember tls.caFile ++
      [("cert_file", .string tls.certFile), ("key_file", .string tls.keyFile),
        ("peer_verify", .string tls.peerVerify.word)]) := by
  cases hauthorities : tls.caFile <;>
    simp only [TlsSettings.toJson, TlsSettings.members, hauthorities,
      TlsSettings.authoritiesMember, Json.ofMembers, List.cons_append, List.nil_append,
      List.foldl_cons, List.foldl_nil, Json.insert, String.reduceEq, String.reduceLT, ↓reduceIte]

theorem toJson_settings
    (settings : Settings) :
    settings.toJson = .object (
      [("framing", .string settings.framing.word),
        ("handshake_timeout", count settings.handshakeTimeout),
        ("initial_data_timeout", count settings.initialDataTimeout),
        ("listen", .string settings.listen.text), ("log_level", .string settings.logLevel),
        ("max_connections", count settings.maxConnections),
        ("max_message_size", count settings.maxMessageSize),
        ("output", .string settings.output),
        ("shutdown_timeout", count settings.shutdownTimeout)] ++
      tlsMember TlsSettings.toJson settings.tls ++
        [("transport", .string settings.transport.word)]) := by
  cases hblock : settings.tls <;>
    simp only [toJson, members, hblock, tlsMember, Json.ofMembers, List.cons_append,
      List.nil_append, List.append_nil, List.foldl_cons, List.foldl_nil, Json.insert,
      String.reduceEq, String.reduceLT, ↓reduceIte]

section Value

variable {reading : Reading}
variable (htext : ∀ wanted s, reading.text wanted (.string s) = .ok s)

include htext

theorem read_tls
    (tls : TlsSettings) :
    TlsSettings.read reading tls.toJson = .ok tls := by
  obtain ⟨keyFile, certFile, caFile, peerVerify⟩ := tls
  rw [toJson_tls]
  cases caFile with
  | none =>
      simp [TlsSettings.authoritiesMember, TlsSettings.read, Field.readMembers,
        TlsSettings.fields, Field.take, Reading.path, Reading.meaning, htext, PeerVerify.read,
        PeerVerify.find?_word, Except.map, Except.mapError, TlsSettings.emptyDraft,
        TlsSettings.ofDraft]
  | some path =>
      simp [TlsSettings.authoritiesMember, TlsSettings.read, Field.readMembers,
        TlsSettings.fields, Field.take, Reading.path, Reading.path?, Reading.meaning, htext,
        PeerVerify.read, PeerVerify.find?_word, Except.map, Except.mapError,
        TlsSettings.emptyDraft, TlsSettings.ofDraft]

/-- Settings come back from their value, if texts are taken as they are and so are their
counts. -/
theorem ofJson_toJson
    (settings : Settings)
    (hcount : ∀ wanted, ∀ n ∈ settings.counts, reading.count wanted (count n) = .ok n) :
    ofJson reading settings.toJson = .ok settings := by
  have htls : ∀ tls : TlsSettings, TlsSettings.read? reading tls.toJson = .ok (some tls) := by
    intro tls
    have hread := read_tls htext tls
    rw [toJson_tls] at hread ⊢
    rw [TlsSettings.read?, hread]
    · rfl
    · nofun
  simp only [counts, List.mem_cons, List.not_mem_nil, or_false, forall_eq_or_imp, forall_eq]
    at hcount
  obtain ⟨listen, transport, framing, tls, size, data, handshake, connections, shutdown, output,
    level⟩ := settings
  rw [toJson_settings]
  cases tls with
  | none =>
      simp [tlsMember, ofJson, Field.readMembers, fields, countField, Field.take,
        Reading.endpoint, Reading.meaning, Reading.path, htext, hcount, Address.find_text,
        Except.map, Except.mapError, Transport.read, Transport.find?_word, FramingPolicy.read,
        FramingPolicy.find?_word]
      rfl
  | some tls =>
      simp [tlsMember, ofJson, Field.readMembers, fields, countField, Field.take,
        Reading.endpoint, Reading.meaning, Reading.path, htext, hcount, htls, Address.find_text,
        Except.map, Except.mapError, Transport.read, Transport.find?_word, FramingPolicy.read,
        FramingPolicy.find?_word]

end Value

/-- Settings come back from their value where values are wanted as they are. -/
theorem strict_toJson
    (settings : Settings) :
    ofJson .strict settings.toJson = .ok settings := by
  refine ofJson_toJson (fun wanted s => (Reading.text_string wanted s).1) settings ?_
  intro wanted n _
  rw [count, Reading.strict_count_ofNat, UInt64.ofNat_toNat]

/-- Settings come back from their value where values are converted, if their counts are whole
numbers of a file. -/
theorem lenient_toJson
    {settings : Settings}
    (h : settings.FitsFile) :
    ofJson .lenient settings.toJson = .ok settings := by
  refine ofJson_toJson (fun wanted s => (Reading.text_string wanted s).2) settings ?_
  intro wanted n hn
  have hwhole : (Json.ofNat n.toNat).narrowed = .whole n.toNat := by
    rw [Json.ofNat, Json.narrowed, if_pos (h n hn)]
  simp [Reading.lenient, Reading.lenientCount, count, hwhole]

/-! The members that settings are written as. -/

section Members

variable (settings : Settings)

theorem mem_tlsMembers
    {tls : TlsSettings} {m : String × Json}
    (h : m ∈ tls.members) :
    m.1 ∈ tlsNames ∧ ∃ s, m.2 = .string s := by
  revert m
  cases hauthorities : tls.caFile <;>
    simp [TlsSettings.members, TlsSettings.authoritiesMember, hauthorities, tlsNames]

/-- The members of settings are texts and counts under their names, but for the TLS settings. -/
theorem mem_members
    {block : TlsSettings → Json} {m : String × Json}
    (h : m ∈ settings.members block) :
    m.1 ∈ names ∧ ((∃ s, m.2 = .string s) ∨ (∃ n, m.2 = count n) ∨ ∃ tls, m.2 = block tls) := by
  revert m
  cases hblock : settings.tls <;> simp [members, tlsMember, hblock, names]

theorem members_map
    (block : TlsSettings → Json) :
    (settings.members block).map (fun m => (m.1, m.2.tidied)) =
      settings.members fun tls => (block tls).tidied := by
  cases hblock : settings.tls <;>
    simp [members, tlsMember, hblock, count, Json.ofNat, Json.tidied]

theorem tlsMembers_tidied
    (tls : TlsSettings) :
    Json.tidied (.object tls.members) = tls.toJson := by
  have hmap : tls.members.map (fun m => (m.1, m.2.tidied)) = tls.members := by
    refine (List.map_congr_left ?_).trans (List.map_id _)
    intro m hm
    obtain ⟨name, v⟩ := m
    obtain ⟨s, rfl⟩ := (mem_tlsMembers hm).2
    rw [Json.tidied]
    rfl
  rw [Json.tidied_object, hmap, TlsSettings.toJson]

/-- The value of settings is what their text writes, with the members in order. -/
theorem document_tidied :
    settings.document.tidied = settings.toJson := by
  rw [document, Json.tidied_object, members_map, toJson]
  exact congrArg _ (congrArg (settings.members ·) (funext tlsMembers_tidied))

theorem document_plain :
    settings.document.Plain Json.mostOpen := by
  refine ⟨by decide, Json.plainMembers_iff.2 ?_⟩
  intro m hm
  rcases (mem_members settings hm).2 with ⟨s, hs⟩ | ⟨n, hn⟩ | ⟨tls, htls⟩
  · rw [hs]
    trivial
  · have hfits : n.toNat < 18446744073709551616 := n.toNat_lt
    have hword : n.toNat ≤ Json.mostWord := by
      rw [Json.mostWord]
      omega
    rw [hn]
    exact ⟨by omega, Int.ofNat_le.2 hword⟩
  · rw [htls]
    refine ⟨by decide, Json.plainMembers_iff.2 ?_⟩
    intro part hpart
    obtain ⟨s, hs⟩ := (mem_tlsMembers hpart).2
    rw [hs]
    trivial

theorem read_text :
    Json.read (Utf8.encode settings.text) = .ok settings.toJson := by
  rw [text, Json.read_write settings.document_plain, document_tidied]

example : Settings.default.text =
    "\x7b\"listen\":\"0.0.0.0:601\",\"transport\":\"auto\",\"framing\":\"auto\"," ++
      "\"max_message_size\":65536,\"initial_data_timeout\":10,\"handshake_timeout\":10," ++
      "\"max_connections\":1024,\"shutdown_timeout\":5,\"output\":\"output.log\"," ++
      "\"log_level\":\"info\"\x7d" := by
  decide +kernel

theorem document_folded
    {m : String × Json}
    (h : m ∈ settings.members fun tls => .object tls.members) :
    Text.folded m.1 = m.1 ∧ m.2.tidied.Folded := by
  obtain ⟨hname, hvalue⟩ := mem_members settings h
  refine ⟨(read_names m.1 hname).2, ?_⟩
  rcases hvalue with ⟨s, hs⟩ | ⟨n, hn⟩ | ⟨tls, htls⟩
  · rw [hs]
    trivial
  · rw [hn]
    trivial
  · rw [htls, Json.tidied]
    refine Json.foldedMembers_tidied ?_
    intro part hpart
    obtain ⟨hpartName, s, hs⟩ := mem_tlsMembers hpart
    refine ⟨folded_tlsNames part.1 hpartName, ?_⟩
    rw [hs]
    trivial

theorem exists_tree
    (origin : String) :
    ∃ members tree, settings.toJson = .object members ∧
      ontoTree origin members .empty = some tree ∧ tree.value = settings.toJson := by
  have hvalue := document_tidied settings
  have htidy := Json.tidied_tidy settings.document
  rw [document, Json.tidied] at hvalue htidy
  have hnames : ∀ m ∈ Json.tidiedMembers [] (settings.members fun tls => .object tls.members),
      KeyPath.read m.1 = ⟨m.1, []⟩ := by
    intro m hm
    rcases Json.mem_tidiedMembers hm with hnone | ⟨v, hv, -⟩
    · cases hnone
    · exact (read_names m.1 (mem_members settings hv).1).1
  obtain ⟨tree, htree, heq⟩ := @Sourced.ontoTree_value origin _ htidy.1 htidy.2 hnames
    (Json.foldedMembers_tidied fun m hm => document_folded settings hm)
  exact ⟨_, tree, hvalue.symm, htree, heq.trans hvalue⟩

end Members

/-- Variables that are not about settings change nothing. -/
theorem foldlM_onto_of_foreign
    {environment : List Variable}
    (h : ∀ v ∈ environment, Variable.key? v.name = none)
    (tree : Sourced) :
    environment.foldlM Variable.onto tree = some tree := by
  induction environment with
  | nil =>
      rfl
  | cons v environment ih =>
      rw [List.foldlM_cons, onto_of_foreign (h v List.mem_cons_self)]
      exact ih fun w hw => h w (List.mem_cons_of_mem v hw)

/-- The tree of a file that holds the text of settings is their value. -/
theorem treeOf_written
    {tree : FileTree} {path : String}
    (settings : Settings)
    (hfile : tree.find path = .ok (.file (Utf8.encode settings.text))) :
    ∃ held, treeOf tree (some path) = .ok held ∧ held.value = settings.toJson := by
  have hleads : tree.leads path = true := by
    rw [FileTree.leads, hfile]
  have hat : ∃ origin, fileAt tree path = .ok (origin, Utf8.encode settings.text) := by
    rw [fileAt]
    cases hpath : Path.read path with
    | error problem =>
        rw [FileTree.find, hpath] at hfile
        cases hfile
    | ok read =>
        simp only [hfile]
        exact ⟨_, rfl⟩
  obtain ⟨origin, hat⟩ := hat
  obtain ⟨members, held, hmembers, hheld, hvalue⟩ := exists_tree settings origin
  have hread : fileMembers origin (Utf8.encode settings.text) = .ok members := by
    have htext : (Utf8.decode (Utf8.encode settings.text)).isNone = false := by
      rw [Utf8.decode_eq_some_iff.2 rfl]
      rfl
    simp only [fileMembers, htext, Bool.false_eq_true, if_false, read_text, hmembers]
  exact ⟨held, treeOf_file hleads hat hread hheld, hvalue⟩

/--
Settings come back from the value that they are written as, where values are wanted as they are;
their text is read as that value; and if their counts are whole numbers of a file, a file with
the text is read as the settings, alone and with variables that are not about settings.
-/
theorem written_exact
    (settings : Settings) :
    ofJson .strict settings.toJson = .ok settings ∧
      Json.read (Utf8.encode settings.text) = .ok settings.toJson ∧
      (settings.FitsFile → ∀ (tree : FileTree) (path : String),
        tree.find path = .ok (.file (Utf8.encode settings.text)) →
          ofFile tree path = .ok settings ∧
          ∀ environment : List Variable, (∀ v ∈ environment, Variable.key? v.name = none) →
            load tree (some path) environment = .ok settings) := by
  refine ⟨strict_toJson settings, read_text settings, ?_⟩
  intro hfits tree path hfile
  obtain ⟨held, htree, hvalue⟩ := treeOf_written settings hfile
  have hload : ∀ environment : List Variable, (∀ v ∈ environment, Variable.key? v.name = none) →
      load tree (some path) environment = .ok settings := by
    intro environment hforeign
    simp only [load, htree, foldlM_onto_of_foreign hforeign, ofSourced, hvalue,
      lenient_toJson hfits]
    rfl
  exact ⟨hload [] (by simp), hload⟩

/-- A folder with one settings file. -/
def folderWith (held : Octets) : FileTree :=
  FileTree.empty.addFile "settings.json" held

theorem find_folderWith
    (held : Octets) :
    (folderWith held).find "settings.json" = .ok (.file held) :=
  rfl

/-- Settings with a zone, with names that need escapes, and with the largest count of a file. -/
def zoned : Settings where
  listen := .v6 ⟨[0xfe80, 0, 0, 0, 1, 0, 0, 0xa1], rfl⟩ 6514 3
  transport := .proxiedTls
  framing := .autoOnce
  tls := some ⟨"key \"1\".pem", "cert\n.pem", none, .optionalTrusted⟩
  maxMessageSize := 9223372036854775807
  initialDataTimeout := 1
  handshakeTimeout := 0
  maxConnections := 2
  shutdownTimeout := 30
  output := "é.log"
  logLevel := ""

theorem written_exact_zoned :
    zoned.FitsFile ∧
      (folderWith (Utf8.encode zoned.text)).find "settings.json" =
        .ok (.file (Utf8.encode zoned.text)) ∧
      Variable.key? "HOME" = none ∧
      ofFile (folderWith (Utf8.encode zoned.text)) "settings.json" = .ok zoned ∧
      load (folderWith (Utf8.encode zoned.text)) (some "settings.json") [⟨"HOME", "/root"⟩] =
        .ok zoned := by
  have hfits : zoned.FitsFile := by decide
  have hfile := find_folderWith (Utf8.encode zoned.text)
  have hforeign : Variable.key? "HOME" = none := by decide +kernel
  obtain ⟨-, -, hback⟩ := written_exact zoned
  obtain ⟨halone, hloaded⟩ := hback hfits _ _ hfile
  refine ⟨hfits, hfile, hforeign, halone, hloaded _ ?_⟩
  intro v hv
  rw [List.mem_singleton.1 hv]
  exact hforeign

end Settings
end SyslogIntake
