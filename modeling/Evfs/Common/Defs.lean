import Mathlib.Data.BitVec

/-!
# Common definitions

Port of `lib/api/vfs/defs.hpp`. A `std::error_code` is its integer value, `0` being success; the
`result<T>` of the source is `Except ErrorCode T`. The error numbers are those of Linux. A `Fault`
is a way of leaving a call that is neither a return value nor an error code: an exception of the
standard library, or undefined behaviour.
-/

namespace Evfs

/-- The characters of a `std::string`. -/
abbrev Str := List Char

/-- The value of a `std::error_code`. -/
abbrev ErrorCode := Int

abbrev EPERM : ErrorCode := 1
abbrev ENOENT : ErrorCode := 2
abbrev EIO : ErrorCode := 5
abbrev ENXIO : ErrorCode := 6
abbrev EBADF : ErrorCode := 9
abbrev EACCES : ErrorCode := 13
abbrev ENOTBLK : ErrorCode := 15
abbrev EEXIST : ErrorCode := 17
abbrev EXDEV : ErrorCode := 18
abbrev ENODEV : ErrorCode := 19
abbrev EINVAL : ErrorCode := 22
abbrev ENOSPC : ErrorCode := 28
abbrev EROFS : ErrorCode := 30
abbrev ENOTSUP : ErrorCode := 95

/-- How a call can end without returning. -/
inductive Fault where
  /-- `std::unordered_map::at` threw `std::out_of_range`. -/
  | outOfRange
  /-- `std::stoi` threw `std::invalid_argument` or `std::out_of_range`. -/
  | stoi
  /-- A member function was called through a null pointer. -/
  | nullDeref
  /-- The value of a `std::expected` that holds an error was used. -/
  | badExpected
  deriving DecidableEq, Repr

/-- `std::bitset<32>`. -/
abbrev Flags := BitVec 32

namespace MountFlags

/-- The position of the read-only bit. -/
def readOnly : Nat := 0

end MountFlags

/-- `std::bitset::test`. -/
def Flags.test (f : Flags) (i : Nat) : Bool := f.getLsbD i

/-- Base name of generated roots. -/
def rootBase : Str := "/volume".toList

end Evfs
