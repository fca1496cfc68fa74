/-
The two data frames of the ECU. A frame has a fixed number of bytes; its
first byte repeats that number, but nothing is read into it: a frame that
misreports its length is used as it is.
-/
namespace MemsProbe

/-- Bytes in frame 80. -/
def Frame80.length : Nat := 28

/-- Bytes in frame 7D. -/
def Frame7D.length : Nat := 32

abbrev Frame80 := Vector UInt8 Frame80.length

abbrev Frame7D := Vector UInt8 Frame7D.length

end MemsProbe
