import Noxy.Ty

/-!
# Signatures of the builtin functions

What the checker knows about builtin functions: the types of their parameters and of their results.
-/

namespace Noxy

structure Signature where
  returns : Option Ty
  params : List Ty
  deriving DecidableEq, Repr

namespace Signature

def struct (name : String) : Ty :=
  .struct name none

def basic : List (String × Signature) :=
  [("print", ⟨none, [.any]⟩),
    ("to_str", ⟨some .string, [.any]⟩),
    ("to_int", ⟨some .int, [.any]⟩),
    ("to_float", ⟨some .float, [.any]⟩),
    ("to_bytes", ⟨some .bytes, [.any]⟩),
    ("strlen", ⟨some .int, [.string]⟩),
    ("ord", ⟨some .int, [.string]⟩),
    ("substring", ⟨some .string, [.string, .int, .int]⟩),
    ("slice", ⟨some .bytes, [.bytes, .int, .int]⟩),
    ("length", ⟨some .int, [.any]⟩),
    ("zeros", ⟨some (.array .int none), [.int]⟩)]

def files : List (String × Signature) :=
  [("io_open", ⟨some (struct "File"), [.string, .string]⟩),
    ("io_close", ⟨some .void, [struct "File"]⟩),
    ("io_read", ⟨some (struct "IOResult"), [struct "File"]⟩),
    ("io_read_line", ⟨some (struct "IOResult"), [struct "File"]⟩),
    ("io_read_lines", ⟨some (struct "IOResult"), [struct "File"]⟩),
    ("io_write", ⟨some .void, [struct "File", .string]⟩),
    ("io_exists", ⟨some .bool, [.string]⟩),
    ("io_stat", ⟨some (struct "FileInfo"), [.string]⟩),
    ("io_remove", ⟨some .bool, [.string]⟩),
    ("io_rename", ⟨some .bool, [.string, .string]⟩),
    ("io_mkdir", ⟨some .bool, [.string]⟩),
    ("io_list_dir", ⟨some (struct "IOResult"), [.string]⟩)]

def sockets : List (String × Signature) :=
  [("net_listen", ⟨some (struct "Socket"), [.string, .int]⟩),
    ("net_accept", ⟨some (struct "Socket"), [struct "Socket"]⟩),
    ("net_connect", ⟨some (struct "Socket"), [.string, .int]⟩),
    ("net_recv", ⟨some (struct "NetResult"), [struct "Socket", .int]⟩),
    ("net_send", ⟨some (struct "NetResult"), [struct "Socket", .any]⟩),
    ("net_close", ⟨some .void, [struct "Socket"]⟩),
    ("net_setblocking", ⟨some .void, [struct "Socket", .bool]⟩),
    ("net_socket_set", ⟨some (.array (struct "Socket") (some 64)), []⟩),
    ("net_select",
      ⟨some (struct "SelectResult"), [.array (struct "Socket") (some 64),
        .array (struct "Socket") (some 64), .array (struct "Socket") (some 64), .int]⟩)]

def collections : List (String × Signature) :=
  [("remove", ⟨some .void, [.any, .any]⟩),
    ("append", ⟨some .void, [.any, .any]⟩),
    ("pop", ⟨some .any, [.any]⟩),
    ("keys", ⟨some (.array .any none), [.any]⟩),
    ("has_key", ⟨some .bool, [.any, .any]⟩),
    ("delete", ⟨some .void, [.any, .any]⟩),
    ("contains", ⟨some .bool, [.any, .any]⟩)]

def system : List (String × Signature) :=
  [("sys_exec", ⟨some (struct "SysResult"), [.string]⟩),
    ("sys_exec_output", ⟨some (struct "SysResult"), [.string]⟩),
    ("sys_getenv", ⟨some (struct "EnvResult"), [.string]⟩),
    ("sys_setenv", ⟨some .bool, [.string, .string]⟩),
    ("sys_getcwd", ⟨some .string, []⟩),
    ("sys_chdir", ⟨some .bool, [.string]⟩),
    ("sys_exit", ⟨some .void, [.int]⟩),
    ("sys_argv", ⟨some (.array .string (some 100)), []⟩),
    ("sys_sleep", ⟨some .void, [.int]⟩)]

def strings : List (String × Signature) :=
  [("strings_contains", ⟨some .bool, [.string, .string]⟩),
    ("strings_starts_with", ⟨some .bool, [.string, .string]⟩),
    ("strings_ends_with", ⟨some .bool, [.string, .string]⟩),
    ("strings_index_of", ⟨some .int, [.string, .string]⟩),
    ("strings_last_index_of", ⟨some .int, [.string, .string]⟩),
    ("strings_count", ⟨some .int, [.string, .string]⟩),
    ("strings_to_upper", ⟨some .string, [.string]⟩),
    ("strings_to_lower", ⟨some .string, [.string]⟩),
    ("strings_trim", ⟨some .string, [.string]⟩),
    ("strings_trim_left", ⟨some .string, [.string]⟩),
    ("strings_trim_right", ⟨some .string, [.string]⟩),
    ("strings_reverse", ⟨some .string, [.string]⟩),
    ("strings_repeat", ⟨some .string, [.string, .int]⟩),
    ("strings_substring", ⟨some .string, [.string, .int, .int]⟩),
    ("strings_replace", ⟨some .string, [.string, .string, .string]⟩),
    ("strings_replace_first", ⟨some .string, [.string, .string, .string]⟩),
    ("strings_pad_left", ⟨some .string, [.string, .int, .string]⟩),
    ("strings_pad_right", ⟨some .string, [.string, .int, .string]⟩),
    ("strings_split", ⟨some (struct "SplitResult"), [.string, .string]⟩),
    ("strings_join", ⟨some .string, [.array .string none, .string]⟩),
    ("strings_join_count", ⟨some .string, [.array .string none, .string, .int]⟩),
    ("strings_is_empty", ⟨some .bool, [.string]⟩),
    ("strings_is_digit", ⟨some .bool, [.string]⟩),
    ("strings_is_alpha", ⟨some .bool, [.string]⟩),
    ("strings_is_alnum", ⟨some .bool, [.string]⟩),
    ("strings_is_space", ⟨some .bool, [.string]⟩),
    ("strings_char_at", ⟨some .string, [.string, .int]⟩),
    ("strings_from_char_code", ⟨some .string, [.int]⟩)]

def databases : List (String × Signature) :=
  [("sqlite_open", ⟨some (struct "Database"), [.string]⟩),
    ("sqlite_close", ⟨some .void, [struct "Database"]⟩),
    ("sqlite_exec", ⟨some (struct "ExecResult"), [struct "Database", .string]⟩),
    ("sqlite_query", ⟨some (struct "QueryResult"), [struct "Database", .string]⟩),
    ("sqlite_prepare", ⟨some (struct "Statement"), [struct "Database", .string]⟩),
    ("sqlite_bind_int", ⟨some .void, [struct "Statement", .int, .int]⟩),
    ("sqlite_bind_float", ⟨some .void, [struct "Statement", .int, .float]⟩),
    ("sqlite_bind_text", ⟨some .void, [struct "Statement", .int, .string]⟩),
    ("sqlite_bind_null", ⟨some .void, [struct "Statement", .int]⟩),
    ("sqlite_step_exec", ⟨some (struct "ExecResult"), [struct "Statement"]⟩),
    ("sqlite_step_query", ⟨some (struct "QueryResult"), [struct "Statement"]⟩),
    ("sqlite_reset", ⟨some .void, [struct "Statement"]⟩),
    ("sqlite_finalize", ⟨some .void, [struct "Statement"]⟩),
    ("sqlite_begin", ⟨some .bool, [struct "Database"]⟩),
    ("sqlite_commit", ⟨some .bool, [struct "Database"]⟩),
    ("sqlite_rollback", ⟨some .bool, [struct "Database"]⟩),
    ("sqlite_table_exists", ⟨some .bool, [struct "Database", .string]⟩),
    ("sqlite_escape", ⟨some .string, [.string]⟩)]

def times : List (String × Signature) :=
  [("time_now", ⟨some .int, []⟩),
    ("time_now_datetime", ⟨some (struct "DateTime"), []⟩),
    ("time_now_ms", ⟨some .int, []⟩),
    ("time_from_timestamp", ⟨some (struct "DateTime"), [.int]⟩),
    ("time_to_timestamp", ⟨some .int, [struct "DateTime"]⟩),
    ("time_make_datetime", ⟨some (struct "DateTime"), [.int, .int, .int, .int, .int, .int]⟩),
    ("time_format", ⟨some .string, [struct "DateTime"]⟩),
    ("time_format_custom", ⟨some .string, [struct "DateTime", .string]⟩),
    ("time_format_date", ⟨some .string, [struct "DateTime"]⟩),
    ("time_format_time", ⟨some .string, [struct "DateTime"]⟩),
    ("time_parse", ⟨some (struct "DateTime"), [.string]⟩),
    ("time_parse_date", ⟨some (struct "DateTime"), [.string]⟩),
    ("time_add_seconds", ⟨some .int, [.int, .int]⟩),
    ("time_add_days", ⟨some .int, [.int, .int]⟩),
    ("time_diff", ⟨some .int, [.int, .int]⟩),
    ("time_diff_duration", ⟨some (struct "Duration"), [.int, .int]⟩),
    ("time_before", ⟨some .bool, [.int, .int]⟩),
    ("time_after", ⟨some .bool, [.int, .int]⟩),
    ("time_is_leap_year", ⟨some .bool, [.int]⟩),
    ("time_days_in_month", ⟨some .int, [.int, .int]⟩),
    ("time_weekday_name", ⟨some .string, [.int]⟩),
    ("time_month_name", ⟨some .string, [.int]⟩)]

def all : List (String × Signature) :=
  basic ++ files ++ sockets ++ collections ++ system ++ strings ++ databases ++ times

def find? (name : String) : Option Signature :=
  all.lookup name

def listing : String :=
  "Entries in BUILTIN_SIGNATURES:\n" ++
    String.join (all.map fun entry => entry.1 ++ "\n") ++
    "\n'print' in BUILTIN_SIGNATURES: " ++ (if (find? "print").isSome then "True" else "False") ++
    "\n"

end Signature

end Noxy
