import Noxy.Modules
import Noxy.Library.Http
import Noxy.Library.HttpClient
import Noxy.Library.HttpParser
import Noxy.Library.HttpServer
import Noxy.Library.Io
import Noxy.Library.JsonHelpers
import Noxy.Library.JsonParser
import Noxy.Library.Net
import Noxy.Library.Rand
import Noxy.Library.Sqlite
import Noxy.Library.Strings
import Noxy.Library.Sys
import Noxy.Library.Time
import Noxy.Library.Uuid

/-!
# The library

The modules that every program can import, as programs of the language itself.
-/

namespace Noxy.Library

def modules : List (String × String) :=
  [("http", http),
    ("http_client", httpClient),
    ("http_parser", httpParser),
    ("http_server", httpServer),
    ("io", io),
    ("json_helpers", jsonHelpers),
    ("json_parser", jsonParser),
    ("net", net),
    ("rand", rand),
    ("sqlite", sqlite),
    ("strings", strings),
    ("sys", sys),
    ("time", time),
    ("uuid", uuid)]

def install (directory : Path) (disk : Disk) : Disk :=
  modules.foldl (fun disk (name, text) =>
    disk.addFile (directory ++ [name ++ Modules.extension]) (Text.Utf8.encode text)) disk

end Noxy.Library
