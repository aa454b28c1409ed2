import Cnegative.Syntax.Ast

namespace Cnegative

namespace Llvm

/-! The builtin functions that `cn_llvm_lower_builtin_call` turns into one call of
the runtime: module, function, runtime symbol and number of arguments passed. -/

structure NamedCall where
  moduleName : Name
  functionName : Name
  symbol : String
  argumentCount : Nat

def rootCalls : List NamedCall :=
  [ ⟨"", "input", "@cn_input", 0⟩,
    ⟨"", "__zone_release", "@cn_zone_release", 1⟩,
    ⟨"", "str_copy", "@cn_dup_cstr", 1⟩,
    ⟨"", "str_concat", "@cn_concat_str", 2⟩ ]

def ioCalls : List NamedCall :=
  [ ⟨"std.io", "read_line", "@cn_input", 0⟩,
    ⟨"std.io", "write", "@cn_write_str", 1⟩,
    ⟨"std.io", "write_line", "@cn_print_str", 1⟩ ]

def bytesCalls : List NamedCall :=
  [ ⟨"std.bytes", "new", "@cn_bytes_new", 0⟩,
    ⟨"std.bytes", "with_capacity", "@cn_bytes_with_capacity", 1⟩,
    ⟨"std.bytes", "release", "@cn_bytes_free", 1⟩,
    ⟨"std.bytes", "clear", "@cn_bytes_clear", 1⟩,
    ⟨"std.bytes", "length", "@cn_bytes_length", 1⟩,
    ⟨"std.bytes", "capacity", "@cn_bytes_capacity", 1⟩,
    ⟨"std.bytes", "view", "@cn_bytes_slice", 1⟩,
    ⟨"std.bytes", "push", "@cn_bytes_push", 2⟩,
    ⟨"std.bytes", "append", "@cn_bytes_append", 2⟩,
    ⟨"std.bytes", "get", "@cn_bytes_get", 2⟩,
    ⟨"std.bytes", "set", "@cn_bytes_set", 3⟩ ]

def linesCalls : List NamedCall :=
  [ ⟨"std.lines", "new", "@cn_lines_new", 0⟩,
    ⟨"std.lines", "with_capacity", "@cn_lines_with_capacity", 1⟩,
    ⟨"std.lines", "release", "@cn_lines_free", 1⟩,
    ⟨"std.lines", "clear", "@cn_lines_clear", 1⟩,
    ⟨"std.lines", "length", "@cn_lines_length", 1⟩,
    ⟨"std.lines", "capacity", "@cn_lines_capacity", 1⟩,
    ⟨"std.lines", "get", "@cn_lines_get", 2⟩,
    ⟨"std.lines", "push", "@cn_lines_push", 2⟩,
    ⟨"std.lines", "remove", "@cn_lines_remove", 2⟩,
    ⟨"std.lines", "set", "@cn_lines_set", 3⟩,
    ⟨"std.lines", "insert", "@cn_lines_insert", 3⟩ ]

def ipcCalls : List NamedCall :=
  [ ⟨"std.ipc", "spawn", "@cn_ipc_spawn", 2⟩,
    ⟨"std.ipc", "stdin_close", "@cn_ipc_stdin_close", 1⟩,
    ⟨"std.ipc", "wait", "@cn_ipc_wait", 1⟩,
    ⟨"std.ipc", "kill", "@cn_ipc_kill", 1⟩,
    ⟨"std.ipc", "release", "@cn_ipc_release", 1⟩,
    ⟨"std.ipc", "stdin_write", "@cn_ipc_stdin_write", 2⟩,
    ⟨"std.ipc", "stdin_write_line", "@cn_ipc_stdin_write_line", 2⟩,
    ⟨"std.ipc", "stdout_read", "@cn_ipc_stdout_read", 2⟩,
    ⟨"std.ipc", "stdout_read_line", "@cn_ipc_stdout_read_line", 2⟩,
    ⟨"std.ipc", "request_line", "@cn_ipc_request_line", 3⟩,
    ⟨"std.ipc", "stderr_read", "@cn_ipc_stderr_read", 2⟩,
    ⟨"std.ipc", "stderr_read_line", "@cn_ipc_stderr_read_line", 2⟩ ]

def termCalls : List NamedCall :=
  [ ⟨"std.term", "is_tty", "@cn_term_is_tty", 0⟩,
    ⟨"std.term", "columns", "@cn_term_columns", 0⟩,
    ⟨"std.term", "rows", "@cn_term_rows", 0⟩,
    ⟨"std.term", "term_name", "@cn_term_term_name", 0⟩,
    ⟨"std.term", "supports_truecolor", "@cn_term_supports_truecolor", 0⟩,
    ⟨"std.term", "supports_256color", "@cn_term_supports_256color", 0⟩,
    ⟨"std.term", "supports_unicode", "@cn_term_supports_unicode", 0⟩,
    ⟨"std.term", "supports_mouse", "@cn_term_supports_mouse", 0⟩,
    ⟨"std.term", "read_byte", "@cn_term_read_byte", 0⟩,
    ⟨"std.term", "read_byte_timeout", "@cn_term_read_byte_timeout", 1⟩,
    ⟨"std.term", "read_event", "@cn_term_read_event", 0⟩,
    ⟨"std.term", "read_event_timeout", "@cn_term_read_event_timeout", 1⟩,
    ⟨"std.term", "read_paste", "@cn_term_read_paste", 0⟩,
    ⟨"std.term", "codepoint_width", "@cn_term_codepoint_width", 1⟩,
    ⟨"std.term", "string_width", "@cn_term_string_width", 1⟩,
    ⟨"std.term", "decode_codepoint", "@cn_term_decode_codepoint", 2⟩,
    ⟨"std.term", "next_codepoint_offset", "@cn_term_next_codepoint_offset", 2⟩,
    ⟨"std.term", "reset_style", "@cn_term_reset_style", 0⟩,
    ⟨"std.term", "enable_mouse", "@cn_term_enable_mouse", 0⟩,
    ⟨"std.term", "disable_mouse", "@cn_term_disable_mouse", 0⟩,
    ⟨"std.term", "enable_bracketed_paste", "@cn_term_enable_bracketed_paste", 0⟩,
    ⟨"std.term", "disable_bracketed_paste", "@cn_term_disable_bracketed_paste", 0⟩,
    ⟨"std.term", "write", "@cn_write_str", 1⟩,
    ⟨"std.term", "buffer_free", "@cn_term_buffer_free", 1⟩,
    ⟨"std.term", "flush", "@cn_term_flush", 0⟩,
    ⟨"std.term", "clear", "@cn_term_clear", 0⟩,
    ⟨"std.term", "clear_line", "@cn_term_clear_line", 0⟩,
    ⟨"std.term", "clear_line_left", "@cn_term_clear_line_left", 0⟩,
    ⟨"std.term", "clear_line_right", "@cn_term_clear_line_right", 0⟩,
    ⟨"std.term", "save_cursor", "@cn_term_save_cursor", 0⟩,
    ⟨"std.term", "restore_cursor", "@cn_term_restore_cursor", 0⟩,
    ⟨"std.term", "hide_cursor", "@cn_term_hide_cursor", 0⟩,
    ⟨"std.term", "show_cursor", "@cn_term_show_cursor", 0⟩,
    ⟨"std.term", "enter_alt_screen", "@cn_term_enter_alt_screen", 0⟩,
    ⟨"std.term", "leave_alt_screen", "@cn_term_leave_alt_screen", 0⟩,
    ⟨"std.term", "reset_scroll_region", "@cn_term_reset_scroll_region", 0⟩,
    ⟨"std.term", "move_cursor", "@cn_term_move_cursor", 2⟩,
    ⟨"std.term", "set_scroll_region", "@cn_term_set_scroll_region", 2⟩,
    ⟨"std.term", "buffer_new", "@cn_term_buffer_new", 2⟩,
    ⟨"std.term", "buffer_resize", "@cn_term_buffer_resize", 4⟩,
    ⟨"std.term", "buffer_clear", "@cn_term_buffer_clear", 2⟩,
    ⟨"std.term", "render_diff", "@cn_term_render_diff", 2⟩,
    ⟨"std.term", "render_diff_clip", "@cn_term_render_diff_clip", 3⟩,
    ⟨"std.term", "enter_raw_mode", "@cn_term_enter_raw_mode", 0⟩,
    ⟨"std.term", "leave_raw_mode", "@cn_term_leave_raw_mode", 0⟩,
    ⟨"std.term", "set_style", "@cn_term_set_style", 3⟩,
    ⟨"std.term", "rgb", "@cn_term_rgb", 3⟩,
    ⟨"std.term", "buffer_get", "@cn_term_buffer_get", 3⟩,
    ⟨"std.term", "buffer_set", "@cn_term_buffer_set", 4⟩ ]

def processCalls : List NamedCall :=
  [ ⟨"std.process", "platform", "@cn_process_platform", 0⟩,
    ⟨"std.process", "arch", "@cn_process_arch", 0⟩,
    ⟨"std.process", "exit", "@cn_process_exit", 1⟩ ]

def textCalls : List NamedCall :=
  [ ⟨"std.text", "new", "@cn_text_new", 0⟩,
    ⟨"std.text", "with_capacity", "@cn_text_with_capacity", 1⟩,
    ⟨"std.text", "release", "@cn_text_free", 1⟩,
    ⟨"std.text", "clear", "@cn_text_clear", 1⟩,
    ⟨"std.text", "length", "@cn_text_length", 1⟩,
    ⟨"std.text", "capacity", "@cn_text_capacity", 1⟩,
    ⟨"std.text", "build", "@cn_text_build", 1⟩,
    ⟨"std.text", "view", "@cn_text_slice", 1⟩,
    ⟨"std.text", "append", "@cn_text_append", 2⟩,
    ⟨"std.text", "append_int", "@cn_text_append_int", 2⟩,
    ⟨"std.text", "push_byte", "@cn_text_push_byte", 2⟩ ]

def timeCalls : List NamedCall :=
  [ ⟨"std.time", "now_ms", "@cn_time_now_ms", 0⟩,
    ⟨"std.time", "sleep_ms", "@cn_time_sleep_ms", 1⟩ ]

def fsCalls : List NamedCall :=
  [ ⟨"std.fs", "cwd", "@cn_fs_cwd", 0⟩,
    ⟨"std.fs", "exists", "@cn_fs_exists", 1⟩,
    ⟨"std.fs", "create_dir", "@cn_fs_create_dir", 1⟩,
    ⟨"std.fs", "remove_dir", "@cn_fs_remove_dir", 1⟩,
    ⟨"std.fs", "read_text", "@cn_fs_read_text", 1⟩,
    ⟨"std.fs", "file_size", "@cn_fs_file_size", 1⟩,
    ⟨"std.fs", "copy", "@cn_fs_copy", 2⟩,
    ⟨"std.fs", "write_text", "@cn_fs_write_text", 2⟩,
    ⟨"std.fs", "append_text", "@cn_fs_append_text", 2⟩,
    ⟨"std.fs", "rename", "@cn_fs_rename", 2⟩,
    ⟨"std.fs", "move", "@cn_fs_rename", 2⟩,
    ⟨"std.fs", "remove", "@cn_fs_remove", 1⟩ ]

def stringsCalls : List NamedCall :=
  [ ⟨"std.strings", "copy", "@cn_dup_cstr", 1⟩,
    ⟨"std.strings", "from_int", "@cn_from_int", 1⟩,
    ⟨"std.strings", "concat", "@cn_concat_str", 2⟩,
    ⟨"std.strings", "len", "@strlen", 1⟩,
    ⟨"std.strings", "starts_with", "@cn_starts_with", 2⟩,
    ⟨"std.strings", "ends_with", "@cn_ends_with", 2⟩ ]

def mathCalls : List NamedCall :=
  [ ⟨"std.math", "abs", "@cn_math_abs", 1⟩,
    ⟨"std.math", "sign", "@cn_math_sign", 1⟩,
    ⟨"std.math", "square", "@cn_math_square", 1⟩,
    ⟨"std.math", "cube", "@cn_math_cube", 1⟩,
    ⟨"std.math", "is_even", "@cn_math_is_even", 1⟩,
    ⟨"std.math", "is_odd", "@cn_math_is_odd", 1⟩,
    ⟨"std.math", "min", "@cn_math_min", 2⟩,
    ⟨"std.math", "max", "@cn_math_max", 2⟩,
    ⟨"std.math", "clamp", "@cn_math_clamp", 3⟩,
    ⟨"std.math", "gcd", "@cn_math_gcd", 2⟩,
    ⟨"std.math", "lcm", "@cn_math_lcm", 2⟩,
    ⟨"std.math", "distance", "@cn_math_distance", 2⟩,
    ⟨"std.math", "between", "@cn_math_between", 3⟩ ]

def parseCalls : List NamedCall :=
  [ ⟨"std.parse", "to_int", "@cn_parse_int", 1⟩,
    ⟨"std.parse", "to_bool", "@cn_parse_bool", 1⟩ ]

def x11Calls : List NamedCall :=
  [ ⟨"std.x11", "open_window", "@cn_x11_open_window", 3⟩,
    ⟨"std.x11", "pump", "@cn_x11_pump", 1⟩,
    ⟨"std.x11", "close", "@cn_x11_close", 1⟩ ]

def netCalls : List NamedCall :=
  [ ⟨"std.net", "is_ipv4", "@cn_net_is_ipv4", 1⟩,
    ⟨"std.net", "accept", "@cn_net_accept", 1⟩,
    ⟨"std.net", "close", "@cn_net_close", 1⟩,
    ⟨"std.net", "join_host_port", "@cn_net_join_host_port", 2⟩,
    ⟨"std.net", "tcp_connect", "@cn_net_tcp_connect", 2⟩,
    ⟨"std.net", "tcp_listen", "@cn_net_tcp_listen", 2⟩,
    ⟨"std.net", "udp_bind", "@cn_net_udp_bind", 2⟩,
    ⟨"std.net", "send", "@cn_net_send", 2⟩,
    ⟨"std.net", "recv", "@cn_net_recv", 2⟩,
    ⟨"std.net", "udp_recv_from", "@cn_net_udp_recv_from", 2⟩,
    ⟨"std.net", "udp_send_to", "@cn_net_udp_send_to", 4⟩ ]

def envCalls : List NamedCall :=
  [ ⟨"std.env", "has", "@cn_env_has", 1⟩,
    ⟨"std.env", "get", "@cn_env_get", 1⟩ ]

def pathCalls : List NamedCall :=
  [ ⟨"std.path", "join", "@cn_path_join", 2⟩,
    ⟨"std.path", "file_name", "@cn_path_file_name", 1⟩,
    ⟨"std.path", "stem", "@cn_path_stem", 1⟩,
    ⟨"std.path", "extension", "@cn_path_extension", 1⟩,
    ⟨"std.path", "is_absolute", "@cn_path_is_absolute", 1⟩,
    ⟨"std.path", "parent", "@cn_path_parent", 1⟩ ]

def namedCalls : List NamedCall :=
  rootCalls ++ ioCalls ++ bytesCalls ++ linesCalls ++ ipcCalls ++ termCalls ++
    processCalls ++ textCalls ++ timeCalls ++ fsCalls ++ stringsCalls ++ mathCalls ++
    parseCalls ++ x11Calls ++ netCalls ++ envCalls ++ pathCalls

def findNamedCall (moduleName functionName : Name) : Option NamedCall :=
  namedCalls.find? fun entry =>
    entry.moduleName == moduleName && entry.functionName == functionName

end Llvm

end Cnegative
