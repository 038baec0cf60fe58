import KeyedRows.Error

namespace KeyedRows.Error

/-- All kinds of failure. -/
def Kind.all : List Kind :=
  [.schemaMismatch, .invalidSchema, .truncatedInput, .unsupportedFormatVersion, .invalidTrailer,
    .schemaVersionMismatch, .commonIdMismatch, .invalidUtf8, .overflow, .invalidText, .file, .catalog]

/-- The kind whose heading opens a message. -/
def Kind.ofMessage? (message : String) : Option Kind :=
  Kind.all.find? fun kind => kind.heading.toList.isPrefixOf message.toList

/-- No heading opens another one, whatever follows it. -/
private theorem find?_heading (kind : Kind) (detail : List Char) :
    Kind.all.find? (fun other => other.heading.toList.isPrefixOf (kind.heading.toList ++ detail)) =
      some kind := by
  cases kind <;> simp [Kind.all, Kind.heading]

/-- The kind of a failure can be told from its message, whatever texts the message
quotes. A text that is quoted may well look like another message, but messages are
told apart by how they begin. -/
theorem ofMessage?_message (e : Error) : Kind.ofMessage? e.message = some e.kind := by
  rw [Kind.ofMessage?, message, String.toList_append]
  exact find?_heading e.kind e.detail.toList

/-- Failures with the same message are of the same kind. The converse does not hold. -/
theorem kind_eq_of_message_eq {e other : Error} (h : e.message = other.message) :
    e.kind = other.kind := by
  have he := ofMessage?_message e
  rw [h, ofMessage?_message other] at he
  exact (Option.some.inj he).symm

end KeyedRows.Error
