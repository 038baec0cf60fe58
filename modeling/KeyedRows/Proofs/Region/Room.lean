import KeyedRows.Proofs.Error.Outcome
import KeyedRows.Proofs.Region.Running

namespace KeyedRows.Region

/-- Whether writing takes a number of free cells and, if there are that many, makes
no more. -/
def TakesRoom (write : Region → Except Error Region) (count : Nat) : Prop :=
  ∀ region after, write region = .ok after → count ≤ region.free →
    after.capacity = region.capacity ∧ after.free + count = region.free

variable {write next : Region → Except Error Region} {count later : Nat}

theorem takesRoom_nothing : TakesRoom .ok 0 := by
  intro region after h _
  cases h
  exact ⟨rfl, rfl⟩

/-- What is pushed may depend on the region, as numbers do on its order. -/
theorem takesRoom_push {bytes : Region → Bytes} (hlength : ∀ region, (bytes region).length = count) :
    TakesRoom (fun region => .ok (region.push (bytes region))) count := by
  intro region after h hroom
  cases h
  rw [← hlength region] at hroom ⊢
  exact ⟨by rw [capacity_push, reserve_of_le _ _ hroom], free_push hroom⟩

theorem takesRoom_pushBack (byte : UInt8) :
    TakesRoom (fun region => .ok (region.pushBack byte)) 1 := by
  intro region after h hroom
  cases h
  exact ⟨by rw [capacity_pushBack, reserve_of_le _ _ hroom],
    @free_after_of_le region (.back byte) rfl hroom⟩

/-- Writing twice takes the cells of both. -/
theorem TakesRoom.bind (hwrite : TakesRoom write count) (hnext : TakesRoom next later) :
    TakesRoom (fun region => write region >>= next) (count + later) := by
  intro region after h hroom
  obtain ⟨middle, hfirst, hrest⟩ := bind_eq_ok_iff.1 h
  obtain ⟨hcapacity, hleft⟩ := hwrite region middle hfirst (by omega)
  obtain ⟨hsame, hfree⟩ := hnext middle after hrest (by omega)
  exact ⟨hsame.trans hcapacity, by omega⟩

/-- Writing in front of other writing that cannot fail. The cells are those of both. -/
theorem TakesRoom.comp {put : Region → Region} (hnext : TakesRoom next later)
    (hput : TakesRoom (fun region => .ok (put region)) count) :
    TakesRoom (fun region => next (put region)) (count + later) :=
  hput.bind hnext

/-- Room for no more than is written need not be made. With more room than is
written the region might be left for a larger one, so the bound is needed. -/
theorem TakesRoom.reserve (hwrite : TakesRoom write count) (room : Nat) (hle : room ≤ count) :
    TakesRoom (fun region => write (region.reserve room)) count := by
  intro region after h hroom
  simp only [reserve_of_le _ _ (Nat.le_trans hle hroom)] at h
  exact hwrite region after h hroom

/-- A check before writing takes no cells: nothing is said of what is refused. -/
theorem TakesRoom.check (check : Except Error Unit) (hwrite : TakesRoom write count) :
    TakesRoom (fun region => check >>= fun _ => write region) count := by
  intro region after h hroom
  obtain ⟨⟨⟩, -, hwritten⟩ := bind_eq_ok_iff.1 h
  exact hwrite region after hwritten hroom

/-- Writing that always fails takes as many cells as one likes. -/
theorem takesRoom_error (e : Error) : TakesRoom (fun _ => .error e) count := by
  intro region after h
  cases h

theorem takesRoom_pushInt32 (n : Int32) :
    TakesRoom (fun region => .ok (region.pushInt32 n)) 4 :=
  takesRoom_push fun _ => ByteOrder.length_word ..

theorem takesRoom_pushUInt64 (n : UInt64) :
    TakesRoom (fun region => .ok (region.pushUInt64 n)) 8 :=
  takesRoom_push fun _ => ByteOrder.length_word ..

/-- A payload takes its own length and that of its length field, and if it is too
long for the field it is not written. Room for both is made in front and is never
more than they take. -/
theorem takesRoom_pushSized (bytes : Bytes) :
    TakesRoom (fun region => region.pushSized bytes) (Frame.lengthSize + bytes.length) := by
  simp only [pushSized]
  split
  · have hpayload : TakesRoom (fun region => .ok (region.push bytes)) bytes.length :=
      takesRoom_push fun _ => rfl
    exact (hpayload.comp (takesRoom_pushInt32 _)).reserve _ (Nat.le_refl _)
  · exact takesRoom_error _

private theorem capacity_empty (capacity : Nat) (order : ByteOrder) :
    (empty capacity order).capacity = max capacity leastCapacity := by
  simp [Region.capacity, empty]

private theorem free_empty (capacity : Nat) (order : ByteOrder) :
    (empty capacity order).free = max capacity leastCapacity := by
  simp [free, empty]

/-- An empty region of enough cells for what is written keeps them. The least number
of cells may be more than was asked for. -/
theorem TakesRoom.capacity_of_empty {capacity : Nat} {order : ByteOrder} {region : Region}
    (hwrite : TakesRoom write count) (h : write (empty capacity order) = .ok region)
    (hroom : count ≤ capacity) : region.capacity = max capacity leastCapacity := by
  rw [← capacity_empty capacity order]
  refine (hwrite _ region h ?_).1
  rw [free_empty]
  exact Nat.le_trans hroom (Nat.le_max_left ..)

end KeyedRows.Region
