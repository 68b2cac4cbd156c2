import EfctVi.RxRefcount

namespace EfctVi

section Reach

variable {nicOk : RxTrace → Nat → Prop} {c : RxHeaderCodes} {q : Nat} {t : RxTrace}

end Reach

end EfctVi
