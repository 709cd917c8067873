import SyslogIntake.Json.Reader

/-!
# Tidy values

The members of an object that was read stand in the order of their names, and each name occurs
once, at every depth.  The members of an object that is only to be written need not be like
that; putting them in order at every depth makes a tidy value of it.

**Results.**

* `ordered_insert` : setting a member keeps members in order;
* `lookup_eq_some_iff` : among members in order, a member is found exactly if it is there;
* `tidied_tidy`, `tidied_of_tidy` : putting members in order makes a value tidy, and leaves one
  that is tidy as it is;
* `read_tidy` : every value that is read is tidy.
-/

namespace SyslogIntake
namespace Json

section Ordered

variable {α : Type}

/-- Members in the order of their names, each name once. -/
def Ordered (members : List (String × α)) : Prop :=
  members.Pairwise fun a b => a.1 < b.1

instance (members : List (String × α)) : Decidable (Ordered members) :=
  inferInstanceAs (Decidable (members.Pairwise fun a b => a.1 < b.1))

theorem ordered_nil :
    Ordered ([] : List (String × α)) :=
  List.Pairwise.nil

theorem ordered_cons
    {name : String} {value : α} {members : List (String × α)} :
    Ordered ((name, value) :: members) ↔ (∀ m ∈ members, name < m.1) ∧ Ordered members :=
  List.pairwise_cons

/-- A member of what results from setting one is that one, or was there. -/
theorem mem_insert
    {name : String} {value : α} {members : List (String × α)} {m : String × α}
    (h : m ∈ insert name value members) :
    m = (name, value) ∨ m ∈ members := by
  induction members with
  | nil =>
      simpa [insert] using h
  | cons head rest ih =>
      obtain ⟨other, held⟩ := head
      rw [insert] at h
      split at h
      · rcases List.mem_cons.1 h with hnew | hold
        · exact Or.inl hnew
        · exact Or.inr (List.mem_cons_of_mem _ hold)
      · split at h
        · exact List.mem_cons.1 h
        · rcases List.mem_cons.1 h with hhead | htail
          · exact Or.inr (hhead ▸ List.mem_cons_self)
          · exact (ih htail).imp id (List.mem_cons_of_mem _)

theorem ordered_insert
    {members : List (String × α)}
    (h : Ordered members)
    (name : String) (value : α) :
    Ordered (insert name value members) := by
  induction members with
  | nil =>
      exact List.pairwise_singleton _ _
  | cons head rest ih =>
      obtain ⟨other, held⟩ := head
      obtain ⟨hbelow, hrest⟩ := ordered_cons.1 h
      rw [insert]
      split
      · rename_i heq
        exact ordered_cons.2 ⟨heq ▸ hbelow, hrest⟩
      · rename_i hne
        split
        · rename_i hlt
          refine ordered_cons.2 ⟨?_, h⟩
          intro m hm
          rcases List.mem_cons.1 hm with rfl | hm
          · exact hlt
          · exact String.lt_trans hlt (hbelow m hm)
        · rename_i hnot
          have hlt : other < name := by
            refine Decidable.byContradiction fun hback => hne ?_
            exact String.le_antisymm (String.not_lt.1 hback) (String.not_lt.1 hnot)
          refine ordered_cons.2 ⟨?_, ih hrest⟩
          intro m hm
          rcases mem_insert hm with rfl | hm
          · exact hlt
          · exact hbelow m hm

/-- A member whose name comes behind all others is put at the end. -/
theorem insert_last
    {name : String} {members : List (String × α)}
    (h : ∀ m ∈ members, m.1 < name)
    (value : α) :
    insert name value members = members ++ [(name, value)] := by
  induction members with
  | nil =>
      rfl
  | cons head rest ih =>
      obtain ⟨other, held⟩ := head
      have hother : other < name := h _ List.mem_cons_self
      have hne : name ≠ other := by
        rintro rfl
        exact String.lt_irrefl _ hother
      rw [insert, if_neg hne, if_neg (String.lt_asymm hother),
        ih fun m hm => h m (List.mem_cons_of_mem _ hm), List.cons_append]

theorem lookup_eq_none
    {name : String} {members : List (String × α)}
    (h : ∀ m ∈ members, m.1 ≠ name) :
    lookup name members = none := by
  induction members with
  | nil =>
      rfl
  | cons head rest ih =>
      obtain ⟨other, held⟩ := head
      have hne : name ≠ other := fun heq => h _ List.mem_cons_self heq.symm
      rw [lookup, if_neg hne]
      exact ih fun m hm => h m (List.mem_cons_of_mem _ hm)

theorem mem_of_lookup
    {name : String} {value : α} {members : List (String × α)}
    (h : lookup name members = some value) :
    (name, value) ∈ members := by
  induction members with
  | nil =>
      cases h
  | cons head rest ih =>
      obtain ⟨other, held⟩ := head
      rw [lookup] at h
      split at h
      · rename_i heq
        rw [heq, Option.some.inj h]
        exact List.mem_cons_self
      · exact List.mem_cons_of_mem _ (ih h)

/-- Among members in order, a member is found exactly if it is there. -/
theorem lookup_eq_some_iff
    {name : String} {value : α} {members : List (String × α)}
    (h : Ordered members) :
    lookup name members = some value ↔ (name, value) ∈ members := by
  refine ⟨mem_of_lookup, ?_⟩
  intro hmem
  induction members with
  | nil =>
      cases hmem
  | cons head rest ih =>
      obtain ⟨other, held⟩ := head
      obtain ⟨hbelow, hrest⟩ := ordered_cons.1 h
      rcases List.mem_cons.1 hmem with heq | htail
      · cases heq
        rw [lookup, if_pos rfl]
      · have hne : name ≠ other := by
          rintro rfl
          exact String.lt_irrefl name (hbelow (name, value) htail)
        rw [lookup, if_neg hne]
        exact ih hrest htail

end Ordered

mutual

/-- A value of which all objects have members in order. -/
def Tidy : Json → Prop
  | .array items => TidyItems items
  | .object members => Ordered members ∧ TidyMembers members
  | .null | .bool _ | .whole _ | .real _ | .string _ => True

def TidyItems : List Json → Prop
  | [] => True
  | item :: rest => Tidy item ∧ TidyItems rest

def TidyMembers : List (String × Json) → Prop
  | [] => True
  | (_, value) :: rest => Tidy value ∧ TidyMembers rest

end

theorem tidyItems_iff
    {items : List Json} :
    TidyItems items ↔ ∀ item ∈ items, item.Tidy := by
  induction items with
  | nil =>
      simp [TidyItems]
  | cons item rest ih =>
      simp [TidyItems, ih]

theorem tidyMembers_iff
    {members : List (String × Json)} :
    TidyMembers members ↔ ∀ m ∈ members, m.2.Tidy := by
  induction members with
  | nil =>
      simp [TidyMembers]
  | cons head rest ih =>
      simp [TidyMembers, ih]

theorem tidyMembers_insert
    {members : List (String × Json)} {value : Json}
    (hmembers : TidyMembers members) (hvalue : value.Tidy)
    (name : String) :
    TidyMembers (insert name value members) := by
  rw [tidyMembers_iff] at hmembers ⊢
  intro m hm
  rcases mem_insert hm with rfl | hm
  · exact hvalue
  · exact hmembers m hm

theorem Tidy.get?
    {name : String} {v part : Json}
    (hv : v.Tidy)
    (hpart : v.get? name = some part) :
    part.Tidy := by
  cases v with
  | object members =>
      exact tidyMembers_iff.1 hv.2 _ (mem_of_lookup hpart)
  | _ =>
      cases hpart

mutual

/-- A value with the members of its objects put in order. -/
def tidied : Json → Json
  | .array items => .array (tidiedItems items)
  | .object members => .object (tidiedMembers [] members)
  | .null => .null
  | .bool b => .bool b
  | .whole n => .whole n
  | .real x => .real x
  | .string s => .string s

/-- Items with the members of their objects put in order. -/
def tidiedItems : List Json → List Json
  | [] => []
  | item :: rest => tidied item :: tidiedItems rest

/-- Members set one after the other in what is held, with the members of their objects put in
order. -/
def tidiedMembers (held : List (String × Json)) : List (String × Json) → List (String × Json)
  | [] => held
  | (name, value) :: rest => tidiedMembers (insert name (tidied value) held) rest

end

mutual

theorem tidied_tidy :
    ∀ v : Json, v.tidied.Tidy
  | .array items => by
      rw [tidied, Tidy]
      exact tidiedItems_tidy items
  | .object members => by
      rw [tidied, Tidy]
      exact tidiedMembers_tidy members ordered_nil trivial
  | .null | .bool _ | .whole _ | .real _ | .string _ => by
      simp [tidied, Tidy]

theorem tidiedItems_tidy :
    ∀ items : List Json, TidyItems (tidiedItems items)
  | [] => trivial
  | item :: rest => ⟨tidied_tidy item, tidiedItems_tidy rest⟩

theorem tidiedMembers_tidy :
    ∀ (members : List (String × Json)) {held : List (String × Json)},
      Ordered held → TidyMembers held →
      Ordered (tidiedMembers held members) ∧ TidyMembers (tidiedMembers held members)
  | [], _, hordered, htidy => ⟨hordered, htidy⟩
  | (name, value) :: rest, _, hordered, htidy =>
      tidiedMembers_tidy rest (ordered_insert hordered name _)
        (tidyMembers_insert htidy (tidied_tidy value) name)

end

mutual

theorem tidied_of_tidy :
    ∀ {v : Json}, v.Tidy → v.tidied = v
  | .array items, h => by
      rw [tidied, tidiedItems_of_tidy h]
  | .object members, h => by
      have hall := @tidiedMembers_of_tidy members [] (by simp) h.1 h.2
      rw [tidied, hall, List.nil_append]
  | .null, _ | .bool _, _ | .whole _, _ | .real _, _ | .string _, _ => by
      rw [tidied]

theorem tidiedItems_of_tidy :
    ∀ {items : List Json}, TidyItems items → tidiedItems items = items
  | [], _ => rfl
  | item :: rest, h => by
      rw [tidiedItems, tidied_of_tidy h.1, tidiedItems_of_tidy h.2]

theorem tidiedMembers_of_tidy :
    ∀ {members held : List (String × Json)},
      (∀ a ∈ held, ∀ b ∈ members, a.1 < b.1) → Ordered members → TidyMembers members →
      tidiedMembers held members = held ++ members
  | [], held, _, _, _ => (List.append_nil held).symm
  | (name, value) :: rest, held, hbefore, hordered, htidy => by
      obtain ⟨hbelow, hrest⟩ := ordered_cons.1 hordered
      have hlast : insert name value held = held ++ [(name, value)] :=
        insert_last (fun m hm => hbefore m hm _ List.mem_cons_self) value
      have hmore : ∀ a ∈ held ++ [(name, value)], ∀ b ∈ rest, a.1 < b.1 := by
        intro a ha b hb
        rcases List.mem_append.1 ha with ha | ha
        · exact hbefore a ha b (List.mem_cons_of_mem _ hb)
        · rw [List.mem_singleton.1 ha]
          exact hbelow b hb
      rw [tidiedMembers, tidied_of_tidy htidy.1, hlast,
        tidiedMembers_of_tidy hmore hrest htidy.2, List.append_assoc, List.singleton_append]

end

/-! Every value that is on its way through the reader is tidy. -/

def Frame.Tidy : Frame → Prop
  | .items held => TidyItems held
  | .members held _ => Ordered held ∧ TidyMembers held

def TidyFrames (outer : List Frame) : Prop :=
  ∀ frame ∈ outer, frame.Tidy

/-- A place inside of which all values are tidy. -/
def Place.Tidy : Place → Prop
  | .value outer | .firstItem outer | .firstName outer => TidyFrames outer
  | .nextItem held outer | .afterItem held outer => TidyItems held ∧ TidyFrames outer
  | .nextName held outer | .colon held _ outer | .afterMember held outer =>
      (Ordered held ∧ TidyMembers held) ∧ TidyFrames outer
  | .done v => v.Tidy

/-- A mode that holds a tidy value, if it holds one. -/
def Mode.Tidy : Mode → Prop
  | .name _ v => v.Tidy
  | _ => True

theorem TidyFrames.cons
    {frame : Frame} {outer : List Frame}
    (hframe : frame.Tidy) (houter : TidyFrames outer) :
    TidyFrames (frame :: outer) :=
  List.forall_mem_cons.2 ⟨hframe, houter⟩

theorem settle_tidy
    {v : Json} {outer : List Frame}
    (hv : v.Tidy) (houter : TidyFrames outer) :
    (Place.settle v outer).Tidy := by
  cases outer with
  | nil =>
      exact hv
  | cons frame outer =>
      obtain ⟨hframe, hmore⟩ := List.forall_mem_cons.1 houter
      cases frame with
      | items held =>
          exact ⟨⟨hv, hframe⟩, hmore⟩
      | members held name =>
          exact ⟨⟨ordered_insert hframe.1 name v, tidyMembers_insert hframe.2 hv name⟩, hmore⟩

theorem outer?_tidy
    {place : Place} {outer : List Frame}
    (hplace : place.Tidy)
    (houter : place.outer? = some outer) :
    TidyFrames outer := by
  cases place with
  | value held =>
      exact Option.some.inj houter ▸ hplace
  | firstItem held =>
      exact Option.some.inj houter ▸ TidyFrames.cons trivial hplace
  | nextItem held more =>
      exact Option.some.inj houter ▸ TidyFrames.cons hplace.1 hplace.2
  | _ =>
      cases houter

theorem afterValue_tidy
    {v : Json} {place : Place}
    (hv : v.Tidy) (hplace : place.Tidy) :
    (place.afterValue v).Tidy := by
  rw [Place.afterValue]
  split
  · rename_i outer houter
    exact settle_tidy hv (outer?_tidy hplace houter)
  · exact hplace

theorem afterString_tidy
    {place : Place}
    (hplace : place.Tidy)
    (s : String) :
    (place.afterString s).Tidy := by
  cases place with
  | firstName outer =>
      exact ⟨⟨ordered_nil, trivial⟩, hplace⟩
  | nextName held outer =>
      exact hplace
  | _ =>
      exact afterValue_tidy (v := .string s) trivial hplace

theorem beginValue_tidy
    {outer : List Frame} {place : Place} {b : UInt8} {next : Mode × Place}
    (houter : TidyFrames outer) (hplace : place.Tidy)
    (h : beginValue outer place b = .ok next) :
    next.1.Tidy ∧ next.2.Tidy := by
  have heither : ∀ {c : Prop} [Decidable c] {a b : Except Cause (Mode × Place)},
      (if c then a else b) = .ok next → a = .ok next ∨ b = .ok next := by
    intro c _ a b hab
    by_cases hc : c
    · exact Or.inl ((if_pos hc).symm.trans hab)
    · exact Or.inr ((if_neg hc).symm.trans hab)
  have hstays : ∀ {mode : Mode}, (.ok (mode, place) : Except Cause (Mode × Place)) = .ok next →
      mode.Tidy → next.1.Tidy ∧ next.2.Tidy := by
    intro mode heq hmode
    cases heq
    exact ⟨hmode, hplace⟩
  unfold beginValue at h
  rcases heither h with h | h
  · exact hstays h trivial
  rcases heither h with h | h
  · exact hstays h trivial
  rcases heither h with h | h
  · exact hstays h trivial
  rcases heither h with h | h
  · exact hstays h trivial
  rcases heither h with h | h
  · exact hstays h trivial
  rcases heither h with h | h
  · exact hstays h trivial
  rcases heither h with h | h
  · exact hstays h trivial
  rcases heither h with h | h
  · rcases heither h with h | h
    · cases h
      refine ⟨trivial, ?_⟩
      split <;> exact houter
    · cases h
  · cases h

theorem beginToken_tidy
    {place : Place} {b : UInt8} {next : Mode × Place}
    (hplace : place.Tidy)
    (h : beginToken place b = .ok next) :
    next.1.Tidy ∧ next.2.Tidy := by
  unfold beginToken at h
  split at h
  · cases h
    exact ⟨trivial, hplace⟩
  · cases place with
    | value outer =>
        exact beginValue_tidy hplace hplace h
    | firstItem outer =>
        simp only at h
        split at h
        · cases h
          exact ⟨trivial, settle_tidy (v := .array []) trivial hplace⟩
        · have hitems : (Frame.items []).Tidy := trivial
          exact beginValue_tidy (TidyFrames.cons hitems hplace) hplace h
    | nextItem held outer =>
        simp only at h
        split at h
        · cases h
        · have hitems : (Frame.items held).Tidy := hplace.1
          exact beginValue_tidy (TidyFrames.cons hitems hplace.2) hplace h
    | afterItem held outer =>
        have hall : Json.Tidy (.array held.reverse) := by
          rw [Json.Tidy, tidyItems_iff]
          intro item hitem
          exact tidyItems_iff.1 hplace.1 item (List.mem_reverse.1 hitem)
        simp only at h
        repeat' split at h
        all_goals cases h
        · exact ⟨trivial, hplace⟩
        · exact ⟨trivial, settle_tidy hall hplace.2⟩
    | firstName outer =>
        have hnone : Json.Tidy (.object []) := ⟨ordered_nil, trivial⟩
        simp only at h
        repeat' split at h
        all_goals cases h
        · exact ⟨trivial, hplace⟩
        · exact ⟨trivial, settle_tidy hnone hplace⟩
    | nextName held outer =>
        simp only at h
        repeat' split at h
        all_goals cases h
        exact ⟨trivial, hplace⟩
    | colon held name outer =>
        simp only at h
        split at h <;> cases h
        exact ⟨trivial, TidyFrames.cons hplace.1 hplace.2⟩
    | afterMember held outer =>
        have hall : Json.Tidy (.object held) := hplace.1
        simp only at h
        repeat' split at h
        all_goals cases h
        · exact ⟨trivial, hplace⟩
        · exact ⟨trivial, settle_tidy hall hplace.2⟩
    | done v =>
        cases h

/-! A number, and a text behind an escape, hold no value yet. -/

section Modes

variable {gathered digits : Octets} {reached : Mode}

theorem extend_tidy
    {part next : NumberPart} {b : UInt8}
    (h : extend gathered part next b = .ok reached) :
    reached.Tidy := by
  unfold extend at h
  repeat' split at h
  all_goals cases h
  all_goals exact trivial

theorem endUnit_tidy
    (h : endUnit gathered digits = .ok reached) :
    reached.Tidy := by
  unfold endUnit at h
  repeat' split at h
  all_goals cases h
  all_goals exact trivial

theorem endPair_tidy
    {high : Nat}
    (h : endPair gathered high digits = .ok reached) :
    reached.Tidy := by
  unfold endPair at h
  repeat' split at h
  all_goals cases h
  all_goals exact trivial

end Modes

theorem step_tidy
    {mode : Mode} {place : Place} {b : UInt8} {next : Mode × Place}
    (hmode : mode.Tidy) (hplace : place.Tidy)
    (h : step mode place b = .ok next) :
    next.1.Tidy ∧ next.2.Tidy := by
  have hmap : ∀ {tried : Except Cause Mode}, (∀ reached, tried = .ok reached → reached.Tidy) →
      (tried.map fun mode => (mode, place)) = .ok next → next.1.Tidy ∧ next.2.Tidy := by
    intro tried htried heq
    cases tried with
    | error cause =>
        cases heq
    | ok reached =>
        cases heq
        exact ⟨htried reached rfl, hplace⟩
  cases mode with
  | between =>
      exact beginToken_tidy hplace h
  | name rest v =>
      match rest with
      | [] =>
          cases h
          exact ⟨trivial, afterValue_tidy hmode hplace⟩
      | [wanted] =>
          simp only [step] at h
          split at h <;> cases h
          exact ⟨trivial, afterValue_tidy hmode hplace⟩
      | wanted :: next :: rest =>
          simp only [step] at h
          split at h <;> cases h
          exact ⟨hmode, hplace⟩
  | number gathered part =>
      simp only [step] at h
      split at h
      · exact hmap (fun reached hreached => extend_tidy hreached) h
      · cases h
  | quoted gathered =>
      simp only [step, stepString] at h
      repeat' split at h
      all_goals cases h
      · exact ⟨trivial, afterString_tidy hplace _⟩
      · exact ⟨trivial, hplace⟩
      · exact ⟨trivial, hplace⟩
  | escape gathered =>
      simp only [step] at h
      repeat' split at h
      all_goals cases h
      all_goals exact ⟨trivial, hplace⟩
  | unit gathered digits =>
      simp only [step] at h
      split at h
      · cases h
        exact ⟨trivial, hplace⟩
      · exact hmap (fun reached hreached => endUnit_tidy hreached) h
  | pairSlash gathered high =>
      simp only [step] at h
      split at h <;> cases h
      exact ⟨trivial, hplace⟩
  | pairLetter gathered high =>
      simp only [step] at h
      split at h <;> cases h
      exact ⟨trivial, hplace⟩
  | pairUnit gathered high digits =>
      simp only [step] at h
      split at h
      · cases h
        exact ⟨trivial, hplace⟩
      · exact hmap (fun reached hreached => endPair_tidy hreached) h

/-! A number is no object. -/

section Numbers

variable {negative : Bool} {significand : Nat} {v : Json}

theorem wholeOf_tidy :
    (wholeOf negative significand).Tidy := by
  unfold wholeOf
  repeat' split
  all_goals exact trivial

theorem realOf_tidy
    {exponent : Int}
    (h : realOf negative significand exponent = some v) :
    v.Tidy := by
  obtain ⟨x, -, rfl⟩ := Option.map_eq_some_iff.1 h
  exact trivial

theorem raised_tidy
    {shown : Option Int} {exponent : Int → Int}
    (h : (shown.bind fun e => realOf negative significand (exponent e)) = some v) :
    v.Tidy := by
  obtain ⟨e, -, he⟩ := Option.bind_eq_some_iff.1 h
  exact realOf_tidy he

theorem unsignedOf_tidy
    {text : List Char}
    (h : unsignedOf negative text = some v) :
    v.Tidy := by
  unfold unsignedOf at h
  generalize text.takeWhile (Numeral.isDigit 10) = whole at h
  generalize text.dropWhile (Numeral.isDigit 10) = rest at h
  generalize gather 0 whole = found at h
  simp only at h
  split at h
  · cases h
  · split at h
    · split at h
      · exact Option.some.inj h ▸ wholeOf_tidy
      · exact realOf_tidy h
    · generalize gather found.1 _ = more at h
      split at h
      · cases h
      · split at h
        · exact realOf_tidy h
        · split at h
          · exact raised_tidy h
          · cases h
    · split at h
      · exact raised_tidy h
      · cases h

theorem numberOf_tidy
    {text : List Char}
    (h : numberOf text = some v) :
    v.Tidy := by
  unfold numberOf at h
  split at h <;> exact unsignedOf_tidy h

end Numbers

namespace Reader

/-- A reader inside of which all values are tidy. -/
def Tidy (r : Reader) : Prop :=
  r.mode.Tidy ∧ r.place.Tidy

theorem endNumber_tidy
    {r next : Reader} {gathered : Octets}
    (hr : r.Tidy)
    (h : r.endNumber gathered = .ok next) :
    next.Tidy := by
  unfold endNumber at h
  split at h
  · rename_i v hv
    cases h
    exact ⟨trivial, afterValue_tidy (numberOf_tidy hv) hr.2⟩
  · cases h

theorem feed_tidy
    {r next : Reader} {b : UInt8}
    (hr : r.Tidy)
    (h : r.feed b = .ok next) :
    next.Tidy := by
  have hsettled : ∀ {held}, r.settled b = .ok held → held.Tidy := by
    intro held hheld
    unfold settled at hheld
    repeat' split at hheld
    · exact endNumber_tidy hr hheld
    all_goals
      cases hheld
      exact hr
  unfold feed at h
  split at h
  · cases h
  · rename_i held hheld
    have htidy := hsettled hheld
    simp only at h
    split at h
    · rename_i mode place hstep
      cases h
      exact step_tidy htidy.1 htidy.2 hstep
    · cases h

theorem feedAll_tidy
    {r next : Reader} {text : Octets}
    (hr : r.Tidy)
    (h : r.feedAll text = .ok next) :
    next.Tidy := by
  induction text generalizing r with
  | nil =>
      cases h
      exact hr
  | cons b rest ih =>
      rw [feedAll] at h
      split at h
      · rename_i held hheld
        exact ih (feed_tidy hr hheld) h
      · cases h

theorem valueAtEnd_tidy
    {r : Reader} {v : Json}
    (hr : r.Tidy)
    (h : r.valueAtEnd = .ok v) :
    v.Tidy := by
  unfold valueAtEnd at h
  split at h
  · rename_i held hplace
    cases h
    have hheld := hr.2
    rw [hplace] at hheld
    exact hheld
  · cases h

end Reader

/-- Every value that is read is tidy. -/
theorem read_tidy
    {text : Octets} {v : Json}
    (h : read text = .ok v) :
    v.Tidy := by
  have hstart : Reader.start.Tidy := ⟨trivial, fun frame hframe => nomatch hframe⟩
  unfold read at h
  cases hall : Reader.start.feedAll text with
  | error flaw =>
      rw [hall] at h
      cases h
  | ok r =>
      have hr := Reader.feedAll_tidy hstart hall
      rw [hall] at h
      simp only [Except.bind, Reader.finish] at h
      split at h
      · exact Reader.valueAtEnd_tidy hr h
      · split at h
        · rename_i gathered part hmode hend
          cases hnumber : r.endNumber gathered with
          | error flaw =>
              rw [hnumber] at h
              cases h
          | ok next =>
              rw [hnumber] at h
              exact Reader.valueAtEnd_tidy (Reader.endNumber_tidy hr hnumber) h
        · cases h
      · cases h
      · cases h

end Json
end SyslogIntake
