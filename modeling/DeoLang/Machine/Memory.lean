/-!
# Memory of the target machine

* `resetVector`: the address where an image is loaded and started.
* `memorySize`: the number of bytes that can be addressed.
* `fits`: whether an image of a given size has room above the reset vector.
-/

namespace DeoLang

/-- The address where an image is loaded and started. -/
def resetVector : Nat := 0x100

/-- The number of bytes that can be addressed. -/
def memorySize : Nat := 0x10000

/-- Whether `size` bytes fit between the reset vector and the end of memory. -/
def fits (size : Nat) : Bool :=
  size ≤ memorySize - resetVector

end DeoLang
