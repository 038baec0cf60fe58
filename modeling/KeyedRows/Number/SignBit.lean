namespace KeyedRows

/-- The weight of the top one of 32 bits. -/
def signBit32 : Nat := 0x80000000

/-- The weight of the top one of 64 bits. -/
def signBit64 : Nat := 0x8000000000000000

end KeyedRows
