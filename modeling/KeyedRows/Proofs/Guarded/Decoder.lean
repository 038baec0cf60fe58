import KeyedRows.Guarded.Decoder
import KeyedRows.Proofs.Guarded.Column
import KeyedRows.Proofs.Row.RoundTrip
import KeyedRows.Proofs.Row.Typing

namespace KeyedRows

/-- The places of the columns of a kind lead to these columns, in their order. -/
theorem Schema.map_positions (columns : Schema) (kind : Column → Bool) :
    (columns.positions kind).map (columns[·]?) = (columns.filter kind).map some := by
  have hfound : ∀ entry ∈ columns.zipIdx.filter fun entry => kind entry.1,
      columns[entry.2]? = some entry.1 := by
    intro entry hmem
    exact List.mem_zipIdx_iff_getElem?.1 (List.mem_filter.1 hmem).1
  have hcolumns : (columns.zipIdx.filter fun entry => kind entry.1).map Prod.fst =
      columns.filter kind := by
    conv_rhs => rw [← List.zipIdx_map_fst 0 columns, List.filter_map]
    rfl
  rw [positions, List.map_map, ← hcolumns, List.map_map]
  exact List.map_congr_left hfound

namespace Guarded

variable {cursor : Cursor}

/-- A projection wants the columns of a selection. -/
def Projection.Follows (projection : Projection) (selection : Selection) (rowLength : Nat) : Prop :=
  ∀ ordinal < rowLength, projection.wants ordinal = .ok (selection.wants ordinal)

/-- A flag that is set for every slot selects as no selection does. -/
theorem Projection.follows_all (rowLength : Nat) : Projection.all.Follows .all rowLength :=
  fun _ _ => rfl

/-- The first ordinal outside the flags is refused; if there is none, the flags at
all ordinals are set. Ordinals may be repeated. There must be one flag for every
slot of a row. -/
theorem mark_cases {rowLength : Nat} {wanted : List Bool} (ordinals : List Nat)
    (hlength : wanted.length = rowLength) :
    match ordinals.find? (rowLength ≤ ·) with
    | some ordinal => mark rowLength ordinals wanted = .error (.selectionOutside ordinal rowLength)
    | none => ∃ marked, mark rowLength ordinals wanted = .ok marked ∧
        ∀ place, marked[place]? = wanted[place]?.map (ordinals.contains place || ·) := by
  induction ordinals generalizing wanted with
  | nil => exact ⟨wanted, rfl, fun place => by simp⟩
  | cons ordinal ordinals ih =>
    rw [List.find?_cons, mark]
    by_cases hin : ordinal < wanted.length
    · have hout : decide (rowLength ≤ ordinal) = false := decide_eq_false (by omega)
      rw [hout, if_pos hin]
      simp only
      have hset := @ih (wanted.set ordinal true) (by rwa [List.length_set])
      split at hset
      · exact hset
      · obtain ⟨marked, hmarked, hflags⟩ := hset
        refine ⟨marked, hmarked, fun place => ?_⟩
        rw [hflags, List.getElem?_set]
        by_cases heq : ordinal = place
        · subst heq
          simp [hin]
        · simp [heq, Ne.symm heq]
    · have hout : decide (rowLength ≤ ordinal) = true := decide_eq_true (by omega)
      rw [hout, if_neg hin]

private theorem put_of_lt {record : Record} {ordinal : Nat} {slot : Slot} (hlt : ordinal < record.size) :
    put record ordinal slot = .ok (record.set ordinal slot) :=
  if_pos hlt

/-- Columns that are found at their places are read one behind the other, each into
a slot that is there. The columns must be read without a fault each, which for key
columns means that none of them is a list. -/
theorem mirrors_slots {read' : Column → Guarded Slot} {skip' : Column → Guarded Unit}
    {read : Column → Reader Slot} {skip : Column → Reader Unit} {projection : Projection}
    {selection : Selection} {columns chosen : Schema} {positions : List Nat} {record : Record}
    (hplaces : positions.map (columns[·]?) = chosen.map some)
    (hread : ∀ column ∈ chosen, ∀ cursor, (read' column).Mirrors (read column) cursor)
    (hskip : ∀ column ∈ chosen, ∀ cursor, (skip' column).Mirrors (skip column) cursor)
    (hlt : ∀ ordinal ∈ chosen.map Column.ordinal, ordinal < record.size)
    (hfollows : projection.Follows selection record.size) (cursor : Cursor) :
    (slots read' skip' projection columns positions record).Mirrors
      (Decoder.readSlots read skip selection chosen record) cursor := by
  induction chosen generalizing positions record cursor with
  | nil =>
    obtain rfl := List.map_eq_nil_iff.1 hplaces
    exact mirrors_pure record
  | cons column chosen ih =>
    obtain ⟨position, positions, rfl, hcolumn, hrest⟩ := List.map_eq_cons_iff.1 hplaces
    rw [List.map_cons, List.forall_mem_cons] at hlt
    obtain ⟨hownRead, hread⟩ := List.forall_mem_cons.1 hread
    obtain ⟨hownSkip, hskip⟩ := List.forall_mem_cons.1 hskip
    rw [slots, Decoder.readSlots]
    apply Mirrors.check (Guard.element_of_getElem? hcolumn)
    apply Mirrors.check (hfollows column.ordinal hlt.1)
    apply Mirrors.ite
    · intro _
      apply (hownRead cursor).bind
      intro slot after _
      have hsize : (record.set column.ordinal slot).size = record.size := Record.size_set hlt.1
      apply Mirrors.check (put_of_lt hlt.1)
      exact ih hrest hread hskip (hsize.symm ▸ hlt.2) (hsize.symm ▸ hfollows) after
    · intro _
      apply (hownSkip cursor).bind
      intro _ after _
      exact ih hrest hread hskip hlt.2 hfollows after

private theorem mirrors_reserved (fromEnd count : Nat) (cursor : Cursor) :
    (reserved fromEnd count).Mirrors (Decoder.readReserved fromEnd count) cursor := by
  induction count generalizing fromEnd cursor with
  | zero => exact mirrors_pure ()
  | succ count ih =>
    apply mirrors_lastByte.bind
    intro b after _
    exact Mirrors.ite (fun _ => ih (fromEnd + 1) after) fun _ => mirrors_fail nofun

private theorem mirrors_trailer : trailer.Mirrors Decoder.readTrailer cursor := by
  apply mirrors_remaining.bind
  intro left after _
  apply Mirrors.ite
  · exact fun hshort => mirrors_truncated hshort
  · intro _
    apply mirrors_lastByte.bind
    intro version middle _
    exact Mirrors.ite (fun _ => mirrors_reserved 1 _ middle) fun _ => mirrors_fail nofun

private theorem mirrors_expectEnd {error : Nat → Error}
    (hother : ∀ left needed left', error left = .truncated needed left' → left' < needed) :
    (expectEnd error).Mirrors (Decoder.expectEnd error) cursor := by
  apply mirrors_remaining.bind
  intro left after _
  exact Mirrors.ite (fun _ => mirrors_pure ()) fun _ => mirrors_fail (hother left)

variable {decoder : Decoder} {projection : Projection} {selection : Selection} {record : Record}

/-- The columns of a kind are read from their places, and then nothing may be left.
The row must have a slot for every column, or setting one would be a fault. -/
theorem mirrors_columns {read' : Column → Guarded Slot} {skip' : Column → Guarded Unit}
    {read : Column → Reader Slot} {skip : Column → Reader Unit} {kind : Column → Bool}
    {error : Nat → Error} (hsize : record.size = decoder.plan.rowLength)
    (hfollows : projection.Follows selection decoder.plan.rowLength)
    (hread : ∀ column ∈ decoder.plan.columns.filter kind, ∀ cursor,
      (read' column).Mirrors (read column) cursor)
    (hskip : ∀ column ∈ decoder.plan.columns.filter kind, ∀ cursor,
      (skip' column).Mirrors (skip column) cursor)
    (hother : ∀ left needed left', error left = .truncated needed left' → left' < needed) :
    (slots read' skip' projection decoder.plan.columns (decoder.plan.columns.positions kind) record >>=
      fun row => expectEnd error >>= fun _ => pure row).Mirrors
    (Decoder.readSlots read skip selection (decoder.plan.columns.filter kind) record >>=
      fun row => Decoder.expectEnd error >>= fun _ => pure row) cursor := by
  have hplaces := decoder.plan.columns.map_positions kind
  have hsubset : decoder.plan.columns.filter kind ⊆ decoder.plan.columns := List.filter_subset_self _
  have hlt := decoder.plan.ordinal_lt_of_subset hsubset
  rw [← hsize] at hlt hfollows
  apply (mirrors_slots hplaces hread hskip hlt hfollows cursor).bind
  intro row stop _
  exact (mirrors_expectEnd hother).map fun _ => row

private theorem mirrors_key (hsize : record.size = decoder.plan.rowLength)
    (hfollows : projection.Follows selection decoder.plan.rowLength) :
    (key decoder projection record).Mirrors (decoder.readKey selection record) cursor := by
  have hscalar : ∀ column ∈ decoder.plan.columns.filter (·.isKey), column.type.isList = false :=
    fun _ hmem => decoder.plan.isList_of_mem_keyColumns hmem
  apply mirrors_byte.bind
  intro tag opened _
  apply mirrors_uint64.bind
  intro commonId headed _
  apply Mirrors.ite
  · intro _
    apply mirrors_trailer.bind
    intro _ framed _
    exact mirrors_columns hsize hfollows (fun column hmem => mirrors_keySlot (hscalar column hmem))
      (fun column hmem => mirrors_skipKeySlot (hscalar column hmem)) nofun
  · exact fun _ => mirrors_fail nofun

private theorem mirrors_value (hsize : record.size = decoder.plan.rowLength)
    (hfollows : projection.Follows selection decoder.plan.rowLength) :
    (value decoder projection record).Mirrors (decoder.readValue selection record) cursor := by
  apply mirrors_int32.bind
  intro schemaVersion headed _
  apply Mirrors.ite
  · intro _
    exact mirrors_columns hsize hfollows (fun column _ => mirrors_valueSlot column)
      (fun column _ => mirrors_skipValueSlot column) nofun
  · exact fun _ => mirrors_fail nofun

end Guarded

namespace Decoder

open Guarded (Projection)

/-- Decoding ends well: no check finds a fault, a row that comes of it has what the
columns that are wanted admit, and an error for want of bytes names more bytes than
were left. -/
structure EndsWell (decoder : Decoder) (wants : Column → Bool)
    (guarded : Except Fault (Except Error Record)) (outcome : Except Error Record) : Prop where
  guarded : guarded = .ok outcome
  typed : ∀ record, outcome = .ok record → record.TypedBy decoder.plan wants
  short : ∀ needed left, outcome = .error (.truncated needed left) → left < needed

variable {decoder : Decoder} {projection : Projection} {selection : Selection} {record : Record}
  {wants : Column → Bool} {key value bytes : Bytes}

/-- Only what is wanted of the columns of the schema matters. -/
theorem EndsWell.congr {wants' : Column → Bool} {guarded : Except Fault (Except Error Record)}
    {outcome : Except Error Record} (h : decoder.EndsWell wants guarded outcome)
    (hsame : ∀ column ∈ decoder.plan.columns, wants column = wants' column) :
    decoder.EndsWell wants' guarded outcome where
  guarded := h.guarded
  typed record hrecord := (h.typed record hrecord).congr hsame
  short := h.short

/-- A reader of a whole byte string ends well if it is mirrored from its first byte
on. It must be shown apart that what is read has the right types. -/
theorem endsWell_run {guarded : Guarded Record} {reader : Reader Record}
    (hmirrors : guarded.Mirrors reader (Cursor.of bytes decoder.plan.order))
    (htyped : ∀ record, decoder.run reader bytes = .ok record → record.TypedBy decoder.plan wants) :
    decoder.EndsWell wants (Guarded.run decoder guarded bytes) (decoder.run reader bytes) where
  guarded := by
    rw [Guarded.run, ← Cursor.bare_of, hmirrors.same]
    rfl
  typed := htyped
  short needed left h := by
    obtain ⟨after, h⟩ := Reader.exists_after h
    exact hmirrors.short needed left after h

private theorem endsWell_readKey (hrecord : record.TypedBy decoder.plan wants)
    (hfollows : projection.Follows selection decoder.plan.rowLength) :
    decoder.EndsWell (fun column => column.isKey && selection.wants column.ordinal || wants column)
      (Guarded.run decoder (Guarded.key decoder projection record) bytes)
      (decoder.run (decoder.readKey selection record) bytes) :=
  endsWell_run (Guarded.mirrors_key hrecord.size hfollows) fun _ h => typedBy_readKey hrecord h

private theorem endsWell_readValue (hrecord : record.TypedBy decoder.plan wants)
    (hfollows : projection.Follows selection decoder.plan.rowLength) :
    decoder.EndsWell (fun column => !column.isKey && selection.wants column.ordinal || wants column)
      (Guarded.run decoder (Guarded.value decoder projection record) bytes)
      (decoder.run (decoder.readValue selection record) bytes) :=
  endsWell_run (Guarded.mirrors_value hrecord.size hfollows) fun _ h => typedBy_readValue hrecord h

private theorem endsWell_decodeWith (hfollows : projection.Follows selection decoder.plan.rowLength) :
    decoder.EndsWell (fun column => selection.wants column.ordinal)
      (Guarded.decodeWith decoder projection key value) (decoder.decodeWith selection key value) := by
  have hread : decoder.EndsWell _
      (Guarded.run decoder (Guarded.key decoder projection decoder.absentRecord) key) _ :=
    endsWell_readKey decoder.typedBy_absentRecord hfollows
  obtain ⟨hguarded, htyped, hshort⟩ := hread
  rw [Guarded.decodeWith, hguarded, decodeWith]
  cases hkey : decoder.run (decoder.readKey selection decoder.absentRecord) key with
  | error e =>
    refine ⟨rfl, ?_, ?_⟩
    · intro record h
      cases h
    · intro needed left h
      cases h
      exact hshort needed left hkey
  | ok record =>
    apply (endsWell_readValue (htyped record hkey) hfollows).congr
    intro column _
    cases column.isKey <;> simp

/-- A selection is refused for the first ordinal outside the rows, or its columns
are flagged. -/
theorem endsWell_decodeSelection (ordinals : List Nat) :
    decoder.EndsWell (fun column => ordinals.contains column.ordinal)
      (Guarded.decodeSelection decoder key value ordinals)
      (decoder.decodeSelection key value ordinals) := by
  have hmark := Guarded.mark_cases ordinals
    (List.length_replicate (n := decoder.plan.rowLength) (a := false))
  rw [Guarded.decodeSelection, decodeSelection]
  cases hfind : ordinals.find? (decoder.plan.rowLength ≤ ·) with
  | some ordinal =>
    simp only [hfind] at hmark
    rw [hmark]
    exact ⟨rfl, nofun, nofun⟩
  | none =>
    simp only [hfind] at hmark
    obtain ⟨wanted, hwanted, hflags⟩ := hmark
    rw [hwanted]
    change decoder.EndsWell (fun column => (Selection.only ordinals).wants column.ordinal)
      (Guarded.decodeWith decoder (.only wanted) key value)
      (decoder.decodeWith (.only ordinals) key value)
    apply endsWell_decodeWith
    intro ordinal hlt
    apply Guard.element_of_getElem?
    rw [hflags, List.getElem?_replicate, if_pos hlt]
    simp [Selection.wants]

/-- Any bytes can be decoded, in full, in part or by halves: no index lies outside,
no difference falls below zero, no sum or product is too large, and no branch is
reached that is there for no input. A row that is read holds values of the types of
the columns that were asked for, and want of bytes is never without cause. -/
theorem decode_endsWell (decoder : Decoder) (key value : Bytes) (ordinals : List Nat) :
    decoder.EndsWell (fun _ => true) (Guarded.decode decoder key value) (decoder.decode key value) ∧
    decoder.EndsWell (fun column => ordinals.contains column.ordinal)
      (Guarded.decodeSelection decoder key value ordinals)
      (decoder.decodeSelection key value ordinals) ∧
    decoder.EndsWell Column.isKey (Guarded.decodeKey decoder key) (decoder.decodeKey key) ∧
    decoder.EndsWell (!·.isKey) (Guarded.decodeValue decoder value) (decoder.decodeValue value) := by
  have hall := Projection.follows_all decoder.plan.rowLength
  refine ⟨endsWell_decodeWith hall, endsWell_decodeSelection ordinals, ?_, ?_⟩
  · apply (endsWell_readKey decoder.typedBy_absentRecord hall).congr
    simp [Selection.wants]
  · apply (endsWell_readValue decoder.typedBy_absentRecord hall).congr
    simp [Selection.wants]

/-- A count of more than two thousand million items, for which one byte is left: no
product is too large, and the error names both numbers of bytes. And a selection
that names a column twice. -/
theorem decode_endsWell_at_hostile_count :
    Guarded.decodeValue (readings .little 5) [1, 0, 0, 0, 1, 255, 255, 255, 127, 7] =
        .ok (.error (.truncated 17179869176 1)) ∧ 1 < 17179869176 ∧
      ∃ record,
        Guarded.decodeSelection (readings .little 5)
            [114, 0, 0, 0, 0, 0, 0, 0, 5, 0, 192, 0, 0, 0, 0, 0, 0, 0, 0, 0, 0, 1]
            [1, 0, 0, 0, 0] [1, 1] = .ok (.ok record) ∧
          record.TypedBy (readings .little 5).plan fun column => [1, 1].contains column.ordinal := by
  obtain ⟨-, -, -, hvalue⟩ := decode_endsWell (readings .little 5) []
    [1, 0, 0, 0, 1, 255, 255, 255, 127, 7] []
  obtain ⟨-, hselection, -, -⟩ := decode_endsWell (readings .little 5)
    [114, 0, 0, 0, 0, 0, 0, 0, 5, 0, 192, 0, 0, 0, 0, 0, 0, 0, 0, 0, 0, 1] [1, 0, 0, 0, 0] [1, 1]
  have hcount : (readings .little 5).decodeValue [1, 0, 0, 0, 1, 255, 255, 255, 127, 7] =
      .error (.truncated 17179869176 1) := by decide +kernel
  have hrow : (readings .little 5).decodeSelection
      [114, 0, 0, 0, 0, 0, 0, 0, 5, 0, 192, 0, 0, 0, 0, 0, 0, 0, 0, 0, 0, 1] [1, 0, 0, 0, 0] [1, 1] =
      .ok ⟨[none, some (.scalar .float64 ⟨0x4000000000000000⟩), none]⟩ := by decide +kernel
  exact ⟨hvalue.guarded.trans (congrArg _ hcount), hvalue.short _ _ hcount, _,
    hselection.guarded.trans (congrArg _ hrow), hselection.typed _ hrow⟩

end Decoder

end KeyedRows
