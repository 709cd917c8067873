import SyslogIntake.Proofs.Address.Writing
import SyslogIntake.Proofs.Text.Ascii

/-!
# How addresses look

The text of an address is short, and its characters are digits, points and colons.

**Results.**

* `Ipv4.length_write_le`, `Ipv6.length_write_le` : how many characters it has at most;
* `Ipv4.visible_write`, `Ipv6.visible_write` : each of them has one octet and is no blank.
-/

namespace SyslogIntake

open Numeral
open Utf8 (Visible)

namespace Ipv4

/-- An octet has at most three digits. -/
theorem length_octet_le
    (b : UInt8) :
    (digits 10 b.toNat).length ≤ 3 := by
  have hb : b.toNat < 256 := b.toNat_lt
  exact length_digits_le (by decide) (by decide) (by omega)

theorem length_write_le
    (address : Ipv4) :
    address.write.length ≤ 15 := by
  have ha := length_octet_le address.a
  have hb := length_octet_le address.b
  have hc := length_octet_le address.c
  have hd := length_octet_le address.d
  simp only [write, List.length_append, List.length_cons]
  omega

theorem write_ne_nil
    (address : Ipv4) :
    address.write ≠ [] := by
  intro hnil
  have hread := Address.readIpv4_write address
  rw [hnil] at hread
  cases hread

theorem visible_write
    (address : Ipv4) :
    ∀ c ∈ address.write, Visible c := by
  have hdigits : ∀ b : UInt8, ∀ c ∈ digits 10 b.toNat, Visible c :=
    fun b => visible_digits (by decide) (by decide) b.toNat
  have hpoint : Visible '.' := by decide
  intro c hc
  simp only [write, List.mem_append, List.mem_cons] at hc
  rcases hc with ((hc | rfl | hc) | rfl | hc) | rfl | hc
  case inl.inl.inl | inl.inl.inr.inr | inl.inr.inr | inr.inr => exact hdigits _ c hc
  all_goals exact hpoint

end Ipv4

namespace Address

theorem length_group_le
    (g : UInt16) :
    (digits 16 g.toNat).length ≤ 4 := by
  have hg : g.toNat < 65536 := g.toNat_lt
  exact length_digits_le (by decide) (by decide) (by omega)

theorem length_following_le
    (found : List UInt16) :
    (following found).length ≤ 5 * found.length := by
  induction found with
  | nil => exact Nat.zero_le _
  | cons g found ih =>
      have hg := length_group_le g
      have hcons : following (g :: found) = ':' :: digits 16 g.toNat ++ following found := rfl
      rw [hcons, List.length_append, List.length_cons, List.length_cons]
      omega

/-- Groups have at most four digits each, and a colon between any two of them. -/
theorem length_writeGroups_le
    (found : List UInt16) :
    (Ipv6.writeGroups found).length ≤ 5 * found.length - 1 := by
  cases found with
  | nil => exact Nat.zero_le _
  | cons g found =>
      have hg := length_group_le g
      have hlater := length_following_le found
      rw [writeGroups_cons, List.length_append, List.length_cons]
      omega

theorem visible_following
    (found : List UInt16) :
    ∀ c ∈ following found, Visible c := by
  intro c hc
  obtain ⟨g, -, hc⟩ := List.mem_flatMap.1 hc
  rcases List.mem_cons.1 hc with rfl | hc
  · decide
  · exact visible_digits (by decide) (by decide) g.toNat c hc

theorem visible_writeGroups
    (found : List UInt16) :
    ∀ c ∈ Ipv6.writeGroups found, Visible c := by
  cases found with
  | nil => exact fun c hc => absurd hc List.not_mem_nil
  | cons g found =>
      intro c hc
      rw [writeGroups_cons] at hc
      rcases List.mem_append.1 hc with hc | hc
      · exact visible_digits (by decide) (by decide) g.toNat c hc
      · exact visible_following found c hc

end Address

namespace Ipv6

open Address

/-- The groups in front of a run of zeros and those behind it are the others. -/
theorem length_around_run
    (address : Ipv6) (start : Nat) :
    (address.groups.take start).length + runAt address.groups start +
      (address.groups.drop (start + runAt address.groups start)).length = 8 := by
  have hsplit := congrArg List.length (split_run address.groups start)
  rw [address.length_groups, List.length_append, List.length_append,
    List.length_replicate] at hsplit
  exact hsplit.symm

/-- The text of a long address has at most thirty-nine characters. -/
theorem length_write_le
    (address : Ipv6) :
    address.write.length ≤ 39 := by
  rw [write]
  split
  · rename_i short hshort
    have hle := short.length_write_le
    simp only [List.length_append, List.length_cons, List.length_nil]
    omega
  · dsimp only
    split
    · rename_i hrun
      have haround := address.length_around_run (longestRun address.groups)
      have hfront := length_writeGroups_le (address.groups.take (longestRun address.groups))
      have hback := length_writeGroups_le (address.groups.drop
        (longestRun address.groups + runAt address.groups (longestRun address.groups)))
      simp only [List.length_append, List.length_cons, List.length_nil]
      omega
    · have hle := length_writeGroups_le address.groups
      rw [address.length_groups] at hle
      exact hle

theorem write_ne_nil
    (address : Ipv6) :
    address.write ≠ [] := by
  intro hnil
  have hread := readIpv6_write address
  rw [hnil] at hread
  cases hread

theorem visible_write
    (address : Ipv6) :
    ∀ c ∈ address.write, Visible c := by
  have hmarks : ∀ c ∈ [':', ':', 'f', 'f', 'f', 'f', ':'], Visible c :=
    List.all_iff_forall_prop.1 rfl
  have hcolons : ∀ c ∈ [':', ':'], Visible c := List.all_iff_forall_prop.1 rfl
  intro c hc
  rw [write] at hc
  split at hc
  · rename_i short hshort
    rcases List.mem_append.1 hc with hc | hc
    · exact hmarks c hc
    · exact short.visible_write c hc
  · dsimp only at hc
    split at hc
    · rw [List.append_assoc] at hc
      rcases List.mem_append.1 hc with hc | hc
      · exact visible_writeGroups _ c hc
      rcases List.mem_append.1 hc with hc | hc
      · exact hcolons c hc
      · exact visible_writeGroups _ c hc
    · exact visible_writeGroups _ c hc

end Ipv6
end SyslogIntake
