/-!
# Banners of the library's texts
-/

namespace Noxy.Library

/-- The three comment lines that open a part of a library text. -/
def banner (title : String) : String :=
  let rule := "// ============================================"
  rule ++ "\n// " ++ title ++ "\n" ++ rule

end Noxy.Library
