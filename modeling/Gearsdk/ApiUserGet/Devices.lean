import Gearsdk.ApiUserGet
import Gearsdk.Crc32.Remainder

/-! Whether the pid of `user_get` tells devices apart. It is the checksum of the fields run
together, so devices are merged where fields run together alike and where the checksum of
different texts is the same. -/
namespace Gearsdk
open Qstring

namespace Http3SampleServer

/-- The fields of a device that the pid is made from. -/
def hashed (msg : RqMsgUserGet) : List Qstring := [msg.sysName, msg.nodeName, msg.release, msg.arch]

theorem userGetCrc_eq (msg : RqMsgUserGet) : userGetCrc msg = Crc32.checksum (hashed msg).flatten :=
  (Crc32.foldl_continued (hashed msg) 0).trans (Crc32.continued_zero _)

/-- Two pids are the same just when the generator divides the difference of the texts. -/
theorem pid_eq_iff (msg msg' : RqMsgUserGet) : (identity msg).pid = (identity msg').pid ↔
    Crc32.generator ∣ Crc32.message (hashed msg).flatten - Crc32.message (hashed msg').flatten := by
  simp only [identity, ApiUserGet.hexadecimal_inj, userGetCrc_eq, Crc32.checksum_eq_iff]

/-- The pid tells two devices apart just when they are the same or the difference of their
texts, as polynomials, is no multiple of the generator. -/
theorem devices_apart_iff (msg msg' : RqMsgUserGet) :
    ((identity msg).pid = (identity msg').pid ↔ hashed msg = hashed msg') ↔
      hashed msg = hashed msg' ∨
        ¬ Crc32.generator ∣ Crc32.message (hashed msg).flatten - Crc32.message (hashed msg').flatten := by
  constructor
  · intro tells
    by_cases same : hashed msg = hashed msg'
    · exact .inl same
    · exact .inr fun divides => same (tells.mp ((pid_eq_iff msg msg').mpr divides))
  · rintro (same | apart)
    · refine iff_of_true ((pid_eq_iff msg msg').mpr ?_) same
      rw [same, sub_self]
      exact dvd_zero _
    · refine iff_of_false (fun pids => apart ((pid_eq_iff msg msg').mp pids)) fun same => apart ?_
      rw [same, sub_self]
      exact dvd_zero _

/-- `ab` and `c` run together like `a` and `bc`. -/
theorem fields_run_together : ¬ ∀ msg msg' : RqMsgUserGet,
    (identity msg).pid = (identity msg').pid ↔ hashed msg = hashed msg' := by
  intro tells
  have same := (tells { sysName := literal "ab", nodeName := literal "c" }
    { sysName := literal "a", nodeName := literal "bc" }).mp (by decide +kernel)
  exact absurd same (by decide +kernel)

end Http3SampleServer
end Gearsdk
