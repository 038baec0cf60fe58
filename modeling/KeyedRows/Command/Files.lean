import KeyedRows.Bytes.Basic
import KeyedRows.Error

namespace KeyedRows.Command

/-- The files that commands read and write, each found by its path. -/
structure Files (m : Type → Type) where
  read : String → m (Except FileFault Bytes)
  /-- Creates or replaces a file. -/
  write : String → Bytes → m (Except FileFault Unit)

/-- Whether a path leads to a file that keeps what is written to it. Other paths may
not: some devices take all bytes and give none back. -/
structure Files.Keeps {σ : Type} (files : Files (StateM σ)) (path : String) : Prop where
  /-- Reading leaves everything as it is. -/
  read_state : ∀ state, ((files.read path).run state).2 = state
  /-- What has been written is read. -/
  read_write : ∀ state bytes after, (files.write path bytes).run state = (.ok (), after) →
    ((files.read path).run after).1 = .ok bytes

end KeyedRows.Command
