import Mathlib.Algebra.Group.Nat.Basic
import Mathlib.Data.List.Basic

/- `ra_compatible_format` of the Wayland dma-buf renderer (`ra_wldmabuf.c`, in this repository's
   `src/version.sh` at lines 93-116): whether the compositor accepts a buffer of a DRM format
   with a given modifier.

   The compositor describes what it accepts in two ways. The dma-buf feedback sends tranches,
   each with an array of formats and its `num_formats`; the format table is a mapping of
   `format_size` bytes holding 16-byte `wayland_format` entries. When any tranche was received,
   the function searches the tranches, in list order, each over its first `num_formats`
   entries, and never looks at the table; otherwise it searches the first
   `format_size / sizeof(wayland_format)` entries of the table.

   The state keeps what the Wayland code guarantees as invariants: a tranche's array holds its
   `num_formats` entries, and the table covers `format_size` bytes. So every read is in bounds,
   and the `(int)` cast of the table's entry count, below `2^28`, is exact. From one lemma
   about the index loops (`any_range_getD`), `ra_compatible_format_iff` states what the function
   returns on every state and every pair. -/

namespace Dmpv.Wayland

/-! ## The model -/

/-- A `wayland_format`: `uint32_t format`, `uint32_t padding`, `uint64_t modifier`. -/
structure WaylandFormat where
  format : UInt32
  modifier : UInt64
  deriving DecidableEq, Repr, Inhabited

/-- `sizeof(wayland_format)`. -/
def sizeofWaylandFormat : Nat := 16

/-- A `struct vo_wayland_tranche`: its `formats` array, holding at least `num_formats`
entries. -/
structure VoWaylandTranche where
  formats : List WaylandFormat
  numFormats : Int
  numFormats_le : numFormats ≤ formats.length

/-- The fields of `struct vo_wayland_state` that `ra_compatible_format` reads: `tranche_list`
in list order, and the format table `format_map` as its whole entries. `format_size` is the
`uint32_t size` of the table's mapping. -/
structure VoWaylandState where
  trancheList : List VoWaylandTranche
  formatMap : List WaylandFormat
  formatSize : UInt32
  formatMap_covers : formatSize.toNat / sizeofWaylandFormat ≤ formatMap.length

/-- `formats[i].format == drm_format && formats[i].modifier == modifier`. -/
def WaylandFormat.isPair (f : WaylandFormat) (drmFormat : UInt32) (modifier : UInt64) : Bool :=
  f.format == drmFormat && f.modifier == modifier

/-- `for (int i = 0; i < n; i++) if (formats[i] is the pair) return true;`: a negative `n` runs
no iteration. -/
def scanFormats (formats : List WaylandFormat) (n : Int) (drmFormat : UInt32)
    (modifier : UInt64) : Bool :=
  (List.range n.toNat).any fun i => (formats.getD i default).isPair drmFormat modifier

/-- `ra_compatible_format(ra, drm_format, modifier)`. -/
def raCompatibleFormat (wl : VoWaylandState) (drmFormat : UInt32) (modifier : UInt64) : Bool :=
  if !wl.trancheList.isEmpty then
    wl.trancheList.any fun tranche =>
      scanFormats tranche.formats tranche.numFormats drmFormat modifier
  else
    scanFormats wl.formatMap (Int.ofNat (wl.formatSize.toNat / sizeofWaylandFormat)) drmFormat modifier

/-! ## The loops -/

/-- **An index loop over a prefix is a search of the prefix.** Reading entries `0` to `n - 1` of
a list that has them visits exactly its first `n` entries. -/
theorem any_range_getD (formats : List WaylandFormat) (p : WaylandFormat → Bool) :
    ∀ n, n ≤ formats.length →
      (List.range n).any (fun i => p (formats.getD i default)) = (formats.take n).any p
  | 0, _ => rfl
  | n + 1, hn => by
    have hlt : n < formats.length := by omega
    rw [List.range_succ, List.any_append, any_range_getD formats p n (by omega), List.take_succ,
      List.any_append, List.getElem?_eq_getElem hlt]
    simp [List.getD_eq_getElem?_getD, List.getElem?_eq_getElem hlt]

/-- The loop of `ra_compatible_format` finds the pair exactly when it is among the first `n`
entries. -/
theorem scanFormats_iff {formats : List WaylandFormat} {n : Int} (hn : n ≤ formats.length)
    (drmFormat : UInt32) (modifier : UInt64) :
    scanFormats formats n drmFormat modifier = true ↔
      ∃ f ∈ formats.take n.toNat, f.format = drmFormat ∧ f.modifier = modifier := by
  rw [scanFormats, any_range_getD formats (fun f => f.isPair drmFormat modifier) n.toNat (by omega),
    List.any_eq_true]
  simp [WaylandFormat.isPair]

/-! ## What the function returns -/

/-- **`ra_compatible_format` searches the tranches, or else the format table.** For every state
and every pair: with tranches received it returns true exactly when some tranche has the pair
among its first `num_formats` entries, the table aside; with none, exactly when the pair is
among the first `format_size / sizeof(wayland_format)` entries of the table. -/
theorem ra_compatible_format_iff (wl : VoWaylandState) (drmFormat : UInt32) (modifier : UInt64) :
    raCompatibleFormat wl drmFormat modifier = true ↔
      (wl.trancheList ≠ [] ∧ ∃ tranche ∈ wl.trancheList,
          ∃ f ∈ tranche.formats.take tranche.numFormats.toNat,
            f.format = drmFormat ∧ f.modifier = modifier) ∨
        (wl.trancheList = [] ∧
          ∃ f ∈ wl.formatMap.take (wl.formatSize.toNat / sizeofWaylandFormat),
            f.format = drmFormat ∧ f.modifier = modifier) := by
  unfold raCompatibleFormat
  cases htl : wl.trancheList with
  | nil =>
    simp only [List.isEmpty_nil, Bool.not_true, Bool.false_eq_true, if_false, ne_eq,
      not_true_eq_false, false_and, true_and, false_or]
    exact scanFormats_iff (Int.ofNat_le.2 wl.formatMap_covers) drmFormat modifier
  | cons tranche rest =>
    simp only [List.isEmpty_cons, Bool.not_false, if_true, ne_eq, reduceCtorEq, not_false_eq_true,
      true_and, false_and, or_false, List.any_eq_true]
    exact exists_congr fun tr => and_congr_right fun _ => scanFormats_iff tr.numFormats_le _ _

-- A tranche that lists nothing hides the table, which holds the pair.
example : raCompatibleFormat ⟨[⟨[], 0, by decide⟩], [⟨1, 2⟩], 16, by decide⟩ 1 2 = false := by decide

end Dmpv.Wayland
