import CacheHost.Text

namespace CacheHost.Http.Dashboard

def styleLines : List String := [
  "<!DOCTYPE html>",
  "<html lang=\"en\">",
  "<head>",
  "<meta charset=\"utf-8\">",
  "<title>blkdev status</title>",
  "<style>",
  "body \x7b font-family: sans-serif; margin: 0; background: #fafaf5; \x7d",
  "header \x7b position: sticky; top: 0; background: #111; color: #fff; padding: .4em 1em; font-size: 1.4em; \x7d",
  "main \x7b display: grid; grid-template-columns: 1fr 1.3fr 1fr; gap: 1.5em; padding: 1em; \x7d",
  "h3 \x7b margin: 1em 0 .2em; \x7d",
  ".label \x7b margin-top: .6em; color: #555; font-size: .9em; \x7d",
  ".bar \x7b width: 15em; height: .5em; border: 1px inset #000; \x7d",
  ".bar > div \x7b height: 100%; width: 0; \x7d",
  ".rx \x7b background: chartreuse; \x7d .tx \x7b background: dodgerblue; \x7d",
  ".used \x7b background: darkcyan; \x7d .mem \x7b background: chartreuse; \x7d",
  "#offline \x7b display: none; position: fixed; inset: 0; background: rgba(200,200,200,.6); \x7d",
  "#offline p \x7b position: absolute; top: 50%; width: 100%; text-align: center; background: #c00; color: #fff; font-weight: bold; padding: .2em 0; \x7d",
  "#beat \x7b position: fixed; right: .3em; bottom: 0; color: #c00; font-weight: bold; \x7d",
  "</style>",
  "</head>"]

def bodyLines : List String := [
  "<body>",
  "<header id=\"title\">blkdev status</header>",
  "<main>",
  "  <section id=\"network\"><h2>Network</h2></section>",
  "  <section id=\"devices\"><h2>Devices</h2></section>",
  "  <section>",
  "    <h2>Status</h2>",
  "    <div class=\"label\">Uptime</div><div id=\"uptime\"></div>",
  "    <div class=\"label\">Time</div><div id=\"time\"></div>",
  "    <div class=\"label\">Memory</div>",
  "    <div class=\"bar\"><div id=\"membar\" class=\"mem\"></div></div><div id=\"memory\"></div>",
  "    <div class=\"label\">CPUs</div><div id=\"cpus\"></div>",
  "    <div class=\"label\">Load average</div><div id=\"loadavg\"></div>",
  "    <div class=\"label\">Sync processes</div><div id=\"processes\">n/a</div>",
  "  </section>",
  "</main>",
  "<div id=\"offline\"><p>Connection lost</p></div>",
  "<div id=\"beat\">&hearts;</div>"]

def scriptLines : List String := [
  "<script>",
  "\"use strict\";",
  "const last = \x7b\x7d;",
  "",
  "function pad(n) \x7b return n < 10 ? \"0\" + n : \"\" + n; \x7d",
  "",
  "function human(bytes, base, units) \x7b",
  "  let i = 0;",
  "  while (bytes >= base && i < units.length - 1) \x7b bytes /= base; i++; \x7d",
  "  return (Math.round(bytes * 100) / 100) + \" \" + units[i];",
  "\x7d",
  "const iec = (b) => human(b, 1024, [\"B\", \"KiB\", \"MiB\", \"GiB\", \"TiB\"]);",
  "const rate = (b) => human(b, 1000, [\"B\", \"kB\", \"MB\", \"GB\"]) + \"/s\";",
  "",
  "function el(parent, tag, id, cls, text) \x7b",
  "  let e = id && document.getElementById(id);",
  "  if (!e) \x7b",
  "    e = document.createElement(tag);",
  "    if (id) e.id = id;",
  "    if (cls) e.className = cls;",
  "    parent.appendChild(e);",
  "  \x7d",
  "  if (text !== undefined) e.textContent = text;",
  "  return e;",
  "\x7d",
  "",
  "function showHost(d) \x7b",
  "  document.title = \"blkdev status on \" + d.hostname;",
  "  document.getElementById(\"title\").textContent = document.title;",
  "  let up = d.uptime;",
  "  const s = pad(up % 60), m = pad(Math.floor(up / 60) % 60), h = pad(Math.floor(up / 3600) % 24);",
  "  document.getElementById(\"uptime\").textContent = Math.floor(up / 86400) + \"d \" + h + \"h \" + m + \"m \" + s + \"s\";",
  "  const t = new Date(d.utc);",
  "  document.getElementById(\"time\").textContent = t.getFullYear() + \"/\" + pad(t.getMonth() + 1) + \"/\" +",
  "    pad(t.getDate()) + \" \" + pad(t.getHours()) + \":\" + pad(t.getMinutes()) + \":\" + pad(t.getSeconds());",
  "  document.getElementById(\"memory\").textContent = iec(d.freemem) + \" of \" + iec(d.totalmem) + \" free\";",
  "  document.getElementById(\"membar\").style.width = (d.totalmem ? 100 * d.freemem / d.totalmem : 0) + \"%\";",
  "  const models = \x7b\x7d;",
  "  d.cpus.forEach((c) => \x7b models[c.model] = (models[c.model] || 0) + 1; \x7d);",
  "  document.getElementById(\"cpus\").innerHTML = Object.keys(models)",
  "    .map((m) => models[m] + \"x \" + m.replace(/</g, \"&lt;\")).join(\"<br>\");",
  "  document.getElementById(\"loadavg\").textContent = d.loadavg.map((l) => l.toFixed(2)).join(\" \");",
  "  if (d.processes !== undefined) \x7b",
  "    document.getElementById(\"processes\").textContent = d.processes + \" running\";",
  "  \x7d",
  "\x7d",
  "",
  "function showNetwork(d) \x7b",
  "  const net = document.getElementById(\"network\");",
  "  const rates = \x7b\x7d;",
  "  let max = 0;",
  "  Object.keys(d.ifaces).forEach((name) => \x7b",
  "    const i = d.ifaces[name], p = last[name];",
  "    if (p && d.utc > p.utc) \x7b",
  "      const dt = (d.utc - p.utc) / 1000;",
  "      rates[name] = \x7b rx: (i.rx - p.rx) / dt, tx: (i.tx - p.tx) / dt \x7d;",
  "      max = Math.max(max, rates[name].rx, rates[name].tx);",
  "    \x7d",
  "    last[name] = \x7b utc: d.utc, rx: i.rx, tx: i.tx \x7d;",
  "  \x7d);",
  "  Object.keys(d.ifaces).forEach((name) => \x7b",
  "    const i = d.ifaces[name];",
  "    el(net, \"h3\", \"if-\" + name, null, name);",
  "    el(net, \"div\", \"addr-\" + name, null, i.IPv4.concat(i.IPv6).join(\", \"));",
  "    [\"rx\", \"tx\"].forEach((dir) => \x7b",
  "      const r = rates[name] ? rates[name][dir] : 0;",
  "      el(net, \"div\", dir + \"-text-\" + name, \"label\", dir.toUpperCase() + \": \" + rate(r));",
  "      const bar = el(net, \"div\", dir + \"-bar-\" + name, \"bar\");",
  "      el(bar, \"div\", dir + \"-fill-\" + name, dir).style.width = (max ? 100 * r / max : 0) + \"%\";",
  "    \x7d);",
  "  \x7d);",
  "\x7d",
  "",
  "function showDevices(d) \x7b",
  "  const box = document.getElementById(\"devices\");",
  "  Object.keys(d.devices).forEach((dev) => \x7b",
  "    el(box, \"h3\", \"dev-\" + dev, null, dev);",
  "    [\"Cache\", \"Filesystem\"].forEach((role, idx) => \x7b",
  "      const path = d.devices[dev][idx];",
  "      const usage = path && d.dfree[path];",
  "      const id = role + \"-\" + dev;",
  "      const wrap = el(box, \"div\", id);",
  "      wrap.style.display = usage ? \"\" : \"none\";",
  "      if (!usage) return;",
  "      const total = usage.used + usage.avail;",
  "      el(wrap, \"div\", id + \"-text\", \"label\",",
  "        role + \" (\" + path + \"): \" + iec(usage.used) + \" used, \" + iec(usage.avail) + \" available\");",
  "      const bar = el(wrap, \"div\", id + \"-bar\", \"bar\");",
  "      el(bar, \"div\", id + \"-fill\", \"used\").style.width = (total ? 100 * usage.used / total : 0) + \"%\";",
  "    \x7d);",
  "  \x7d);",
  "\x7d",
  "",
  "function poll() \x7b",
  "  const beat = document.getElementById(\"beat\");",
  "  beat.style.visibility = beat.style.visibility === \"hidden\" ? \"visible\" : \"hidden\";",
  "  const offline = document.getElementById(\"offline\");",
  "  fetch(\"/data\", \x7b signal: AbortSignal.timeout(10000) \x7d)",
  "    .then((r) => \x7b if (!r.ok) throw new Error(r.status); return r.json(); \x7d)",
  "    .then((d) => \x7b",
  "      offline.style.display = \"none\";",
  "      showHost(d);",
  "      showNetwork(d);",
  "      showDevices(d);",
  "    \x7d)",
  "    .catch(() => \x7b offline.style.display = \"block\"; \x7d)",
  "    .finally(() => setTimeout(poll, 1000));",
  "\x7d",
  "",
  "poll();",
  "</script>",
  "</body>",
  "</html>"]

def page : Text :=
  (styleLines ++ bodyLines ++ scriptLines).flatMap fun line => line.toList ++ ['\n']

end CacheHost.Http.Dashboard
